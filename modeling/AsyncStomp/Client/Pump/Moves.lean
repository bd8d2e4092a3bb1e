/-
# What a step can do

Every step of a pumped connection is made of a few moves, each with what is known when it
is made (`Pumped.refines_move`).  The invariants are proved of the moves.
-/
import AsyncStomp.Client.Pump.Basic

namespace AsyncStomp

open Tasks Relation

namespace Pumped

variable {ch : Mpsc (ℕ × Item)} {ε : Type}

/-- The moves a step is made of. -/
inductive Move (interval : Option ℕ) : Pumped ch ε → Pumped ch ε → Prop
  /-- The pending oneshot reports `Ok`. -/
  | settle {s n} (hpending : s.pending = some n) (hok : s.oneshots n = .sent (.ok ()))
      (hcall : ∀ m i, s.call ≠ .flushing m i) :
      Move interval s ({ s with pending := none }.note [.settled n (.ok ())])
  /-- The pending oneshot reports an error, which the operation returns. -/
  | fail {s n e} (op : Op) (hpending : s.pending = some n)
      (herror : report (s.oneshots n) = some (.error e)) (hcall : ∀ m i, s.call ≠ .flushing m i) :
      Move interval s
        ({ s with pending := none }.note [.settled n (.error e), .answered op (.error e)])
  | permit {s} (hpending : s.pending = none) : Move interval s { s with ready := true }
  | accept {s item channel} (hready : s.ready = true) (hcall : s.call = .none)
      (hsend : ch.startSend s.channel (s.fresh, item) = .ok channel) :
      Move interval s
        ({ s with ready := false, channel := channel, pending := some s.fresh }.note
          [.accepted s.fresh item])
  | refuse {s item e} (hready : s.ready = true) (hcall : s.call = .none)
      (hsend : ch.startSend s.channel (s.fresh, item) = .error e) :
      Move interval s ({ s with ready := false }.note [.refused e])
  | answer {s} (op : Op) (r : Report ε) : Move interval s (s.note [.answered op r])
  /-- The caller awaits another future, or none. -/
  | await {s} (call : Call) (hflush : ∀ n i, call ≠ .flushing n i)
      (hstart : ∀ f i, call = .starting f i → s.ready = true) :
      Move interval s { s with call := call }
  /-- The future has its item accepted and awaits the report. -/
  | flush {s n item} (hpending : s.pending = some n) (hmem : (n, item) ∈ accepted s.log) :
      Move interval s { s with call := .flushing n item }
  | sent {s n item} (hok : s.oneshots n = .sent (.ok ())) (hmem : (n, item) ∈ accepted s.log) :
      Move interval s (s.note [.sent n item])
  | closeChannel {s} : Move interval s { s with channel := ch.closeChannel s.channel }
  | dropTransport {s} : Move interval s { s with dropped := true }
  | receive {s n item channel} (hphase : s.phase = .receiving)
      (hnext : ch.next s.channel = .ready (some ((n, item), channel))) :
      Move interval s ({ s with channel := channel }.hand (.writing n item) (.own n item))
  | leave {s} (hphase : s.phase = .receiving) (hnext : ch.next s.channel = .ready none) :
      Move interval s { s with phase := .closing }
  | timeout {s period} (hphase : s.phase = .receiving) (hinterval : interval = some period) :
      Move interval s (s.hand .beating .beat)
  | transmit {s} (k : ℕ) (hphase : s.phase ≠ .receiving ∧ s.phase ≠ .exited) :
      Move interval s { s with wire := s.wire ++ s.buffer.take k, buffer := s.buffer.drop k }
  | finish {s n item} (r : Except ε Unit) (hphase : s.phase = .writing n item)
      (hreturn : s.MayReturn r) :
      Move interval s
        ({ s with
          phase := afterSend r
          oneshots := Function.update s.oneshots n (.sent r) }.note [.finished (.own n item) r])
  | finishBeat {s} (r : Except ε Unit) (hphase : s.phase = .beating)
      (hreturn : s.MayReturn r) :
      Move interval s ({ s with phase := afterSend r }.note [.finished .beat r])
  | shutDown {s} (r : Except ε Unit) (hphase : s.phase = .closing) :
      Move interval s
        ({ s with
          phase := .exited
          channel := ch.dropReceiver s.channel
          oneshots := cancelQueued (ch.queue s.channel) s.oneshots }.note [.shutDown r])

variable {interval : Option ℕ}

@[simp] lemma note_note (s : Pumped ch ε) (xs ys : List (Event ε)) :
    (s.note xs).note ys = s.note (xs ++ ys) := by
  simp [note, List.append_assoc]

lemma report_eq_ok {o : Oneshot (Except ε Unit)} (h : report o = some (.ok ())) :
    o = .sent (.ok ()) := by
  cases o with
  | waiting => cases h
  | sent r =>
      cases r with
      | ok u => rfl
      | error e => cases h
  | cancelled => cases h

/-! ### Operations -/

/-- What `poll_flush` can do: wait, find nothing to report or take the report. -/
lemma pollFlush_cases (s : Pumped ch ε) :
    s.pollFlush = (.pending, s) ∨
      (s.pending = none ∧ s.pollFlush = (.ready (.ok ()), s)) ∨
      (∃ n, s.pending = some n ∧ s.oneshots n = .sent (.ok ()) ∧
        s.pollFlush = (.ready (.ok ()), { s with pending := none }.note [.settled n (.ok ())])) ∨
      ∃ n e, s.pending = some n ∧ report (s.oneshots n) = some (.error e) ∧
        s.pollFlush =
          (.ready (.error e), { s with pending := none }.note [.settled n (.error e)]) := by
  cases hpending : s.pending with
  | none =>
      right
      left
      exact ⟨rfl, by rw [pollFlush, hpending]⟩
  | some n =>
      cases hreport : report (s.oneshots n) with
      | none =>
          left
          simp only [pollFlush, hpending, hreport]
      | some r =>
          cases r with
          | ok u =>
              right; right; left
              exact ⟨n, rfl, report_eq_ok hreport, by simp only [pollFlush, hpending, hreport]⟩
          | error e =>
              right; right; right
              exact ⟨n, e, rfl, hreport, by simp only [pollFlush, hpending, hreport]⟩

/-- The moves of one step. -/
abbrev Moves (interval : Option ℕ) : Pumped ch ε → Pumped ch ε → Prop :=
  ReflTransGen (Move interval)

/-- What becomes of `poll_flush`: it waits, it returns `Ok` with nothing left pending, or it returns
an error. -/
lemma pollFlush_moves (interval : Option ℕ) (s : Pumped ch ε)
    (hcall : ∀ m i, s.call ≠ .flushing m i) :
    s.pollFlush = (.pending, s) ∨
      (∃ s', s.pollFlush = (.ready (.ok ()), s') ∧ Moves interval s s' ∧ s'.pending = none) ∨
      ∃ s' e, s.pollFlush = (.ready (.error e), s') ∧
        ∀ op, Moves interval s (s'.note [.answered op (.error e)]) := by
  rcases s.pollFlush_cases with
    h | ⟨hpending, h⟩ | ⟨n, hpending, hok, h⟩ | ⟨n, e, hpending, herror, h⟩
  · exact Or.inl h
  · exact Or.inr (Or.inl ⟨s, h, .refl, hpending⟩)
  · exact Or.inr (Or.inl ⟨_, h, .single (.settle hpending hok hcall), rfl⟩)
  · refine Or.inr (Or.inr ⟨_, e, h, fun op => ?_⟩)
    rw [note_note]
    exact .single (.fail op hpending herror hcall)

lemma pollReady_moves (interval : Option ℕ) (s : Pumped ch ε)
    (hcall : ∀ m i, s.call ≠ .flushing m i) :
    (∃ s', s.pollReady = (.pending, s') ∧ Moves interval s s') ∨
      (∃ s', s.pollReady = (.ready (.ok ()), s') ∧ Moves interval s s' ∧ s'.ready = true) ∨
      ∃ s' e, s.pollReady = (.ready (.error e), s') ∧
        ∀ op, Moves interval s (s'.note [.answered op (.error e)]) := by
  rcases s.pollFlush_moves interval hcall with
    h | ⟨s', h, hmoves, hpending⟩ | ⟨s', e, h, hmoves⟩
  · exact Or.inl ⟨s, by simp only [pollReady, h], .refl⟩
  · cases hready : ch.pollReady s'.channel with
    | pending => exact Or.inl ⟨s', by simp only [pollReady, h, hready], hmoves⟩
    | ready r =>
        cases r with
        | ok u =>
            refine Or.inr (Or.inl ⟨{ s' with ready := true }, ?_, ?_, rfl⟩)
            · simp only [pollReady, h, hready]
            · exact hmoves.tail (.permit hpending)
        | error e =>
            refine Or.inr (Or.inr ⟨s', .closed, ?_, fun op => ?_⟩)
            · simp only [pollReady, h, hready]
            · exact hmoves.tail (.answer op _)
  · exact Or.inr (Or.inr ⟨s', e, by simp only [pollReady, h], hmoves⟩)

lemma startSend_moves (interval : Option ℕ) (s : Pumped ch ε) (item : Item)
    (hready : s.ready = true) (hcall : s.call = .none) :
    (∃ s', s.startSend item = (.ok (), s') ∧ Moves interval s s' ∧ s'.pending = some s.fresh ∧
        (s.fresh, item) ∈ accepted s'.log) ∨
      ∃ s' e, s.startSend item = (.error e, s') ∧ Moves interval s s' := by
  cases hsend : ch.startSend s.channel (s.fresh, item) with
  | ok channel =>
      refine Or.inl ⟨_, ?_, .single (.accept hready hcall hsend), rfl, ?_⟩
      · simp only [startSend, hsend]
      · simp [note, accepted]
  | error e =>
      refine Or.inr ⟨_, .closed, ?_, .single (.refuse hready hcall hsend)⟩
      simp only [startSend, hsend]

/-! ### Steps -/

section Caller

variable {s s' : Pumped ch ε}

lemma Idle.ne_flushing (h : s.Idle) : ∀ m i, s.call ≠ .flushing m i := by
  rw [h.2]
  simp

lemma moves_pollReady (hidle : s.Idle) : Moves interval s (answer .pollReady s.pollReady) := by
  rcases s.pollReady_moves interval hidle.ne_flushing with
    ⟨s', h, hmoves⟩ | ⟨s', h, hmoves, -⟩ | ⟨s', e, h, hmoves⟩
  · rw [h]
    exact hmoves
  · rw [h]
    exact hmoves.tail (.answer _ _)
  · rw [h]
    exact hmoves _

lemma moves_pollFlush (hidle : s.Idle) : Moves interval s (answer .pollFlush s.pollFlush) := by
  rcases s.pollFlush_moves interval hidle.ne_flushing with
    h | ⟨s', h, hmoves, -⟩ | ⟨s', e, h, hmoves⟩
  · rw [h]
    exact .refl
  · rw [h]
    exact hmoves.tail (.answer _ _)
  · rw [h]
    exact hmoves _

lemma moves_pollClose (hidle : s.Idle) : Moves interval s (answer .pollClose s.pollClose) := by
  rcases s.pollFlush_moves interval hidle.ne_flushing with
    h | ⟨s', h, hmoves, -⟩ | ⟨s', e, h, hmoves⟩
  · simp only [pollClose, h]
    exact .refl
  · simp only [pollClose, h]
    exact (hmoves.tail .closeChannel).tail (.answer _ _)
  · simp only [pollClose, h]
    exact hmoves _

lemma moves_startSend (hidle : s.Idle) (hready : s.ready = true) (item : Item) :
    Moves interval s (answer .startSend ((s.startSend item).map .ready id)) := by
  rcases s.startSend_moves interval item hready hidle.2 with
    ⟨s', h, hmoves, -⟩ | ⟨s', e, h, hmoves⟩
  · rw [h]
    exact hmoves.tail (.answer _ _)
  · rw [h]
    exact hmoves.tail (.answer _ _)

/-- To await nothing is always possible. -/
lemma Move.awaitNone (interval : Option ℕ) (s : Pumped ch ε) :
    Move interval s { s with call := .none } :=
  .await .none (by simp) (by simp)

/-- What is known of the future that the caller awaits. -/
structure CallOk (s : Pumped ch ε) : Prop where
  starting : ∀ f i, s.call = .starting f i → s.ready = true
  flushing : ∀ n i, s.call = .flushing n i → s.pending = some n ∧ (n, i) ∈ accepted s.log

/-- `start_send` does not look at the future. -/
lemma startSend_awaitNone (s : Pumped ch ε) (item : Item) :
    ({ s with call := .none } : Pumped ch ε).startSend item =
      (s.startSend item).map id fun s' => { s' with call := .none } := by
  have hfresh : ({ s with call := .none } : Pumped ch ε).fresh = s.fresh := rfl
  cases hsend : ch.startSend s.channel (s.fresh, item) <;>
    simp only [startSend, hfresh, hsend, Prod.map_apply, id] <;> rfl

lemma moves_starting {flush : Bool} {item : Item} (hcall : s.call = .starting flush item)
    (hready : s.ready = true) (h : s.pollCall = some s') : Moves interval s s' := by
  have hawait := Move.awaitNone interval s
  have hnone := s.startSend_awaitNone item
  rcases startSend_moves interval { s with call := .none } item hready rfl with
    ⟨s₁, hsend, hmoves, hpending, hmem⟩ | ⟨s₁, e, hsend, hmoves⟩
  · cases hs : s.startSend item with
    | mk r s₂ =>
        rw [hs, hsend] at hnone
        cases hnone
        simp only [pollCall, hcall, hs] at h
        cases flush with
        | true =>
            cases h
            exact (hmoves.head hawait).tail (.flush hpending hmem)
        | false =>
            cases h
            exact (hmoves.head hawait).tail (.answer _ _)
  · cases hs : s.startSend item with
    | mk r s₂ =>
        rw [hs, hsend] at hnone
        cases hnone
        simp only [pollCall, hcall, hs] at h
        cases h
        exact (hmoves.head hawait).tail (.answer _ _)

lemma moves_flushing {n : ℕ} {item : Item} (hcall : s.call = .flushing n item)
    (hpending : s.pending = some n) (hmem : (n, item) ∈ accepted s.log)
    (h : s.pollCall = some s') : Moves interval s s' := by
  have hawait := Move.awaitNone interval s
  rcases s.pollFlush_cases with hf | ⟨hp, hf⟩ | ⟨m, hp, hok, hf⟩ | ⟨m, e, hp, herror, hf⟩
  · simp only [pollCall, hcall, hf] at h
    cases h
    exact .refl
  · rw [hpending] at hp
    cases hp
  · simp only [pollCall, hcall, hf] at h
    cases h
    rw [hpending] at hp
    cases hp
    have hsettle : Moves interval { s with call := .none } _ :=
      .single (.settle hpending hok (by simp))
    have hanswer := (hsettle.head hawait).tail (.answer .future (.ok ()))
    have hsent := hanswer.tail (.sent hok (by simpa [note, accepted] using hmem))
    convert hsent using 1
    simp [note]
  · simp only [pollCall, hcall, hf] at h
    cases h
    have hfail : Moves interval { s with call := .none } _ :=
      .single (.fail .future hp herror (by simp))
    convert hfail.head hawait using 1
    simp [note]

lemma moves_pollCall (hinv : s.CallOk) (h : s.pollCall = some s') : Moves interval s s' := by
  cases hcall : s.call with
  | none => simp [pollCall, hcall] at h
  | readying flush item =>
      rcases s.pollReady_moves interval (by simp [hcall]) with
        ⟨s₁, hready, hmoves⟩ | ⟨s₁, hready, hmoves, hpermit⟩ | ⟨s₁, e, hready, hmoves⟩
      · simp only [pollCall, hcall, hready] at h
        cases h
        exact hmoves
      · simp only [pollCall, hcall, hready] at h
        cases h
        exact hmoves.tail (.await _ (by simp) fun _ _ _ => hpermit)
      · simp only [pollCall, hcall, hready] at h
        cases h
        exact (hmoves .future).tail (Move.awaitNone _ _)
  | starting flush item => exact moves_starting hcall (hinv.starting _ _ hcall) h
  | flushing n item =>
      obtain ⟨hpending, hmem⟩ := hinv.flushing _ _ hcall
      exact moves_flushing hcall hpending hmem h

end Caller

section Pump

variable {s s' : Pumped ch ε}

/-- The pump waits at the channel, and takes the next item or the end. -/
lemma receive_eq_some (h : s.receive = some s') :
    s.phase = .receiving ∧
      ((∃ n item channel, ch.next s.channel = .ready (some ((n, item), channel)) ∧
          s' = { s with channel := channel }.hand (.writing n item) (.own n item)) ∨
        (ch.next s.channel = .ready none ∧ s' = { s with phase := .closing })) := by
  cases hphase : s.phase with
  | receiving =>
      refine ⟨rfl, ?_⟩
      cases hnext : ch.next s.channel with
      | pending => simp [receive, hphase, hnext] at h
      | ready next =>
          rcases next with _ | ⟨⟨n, item⟩, channel⟩
          · simp only [receive, hphase, hnext] at h
            cases h
            exact Or.inr ⟨rfl, rfl⟩
          · simp only [receive, hphase, hnext] at h
            cases h
            exact Or.inl ⟨n, item, channel, rfl, rfl⟩
  | _ => simp [receive, hphase] at h

lemma timeout_eq_some_iff : s.timeout interval = some s' ↔
    s.phase = .receiving ∧ (∃ period, interval = some period) ∧ s' = s.hand .beating .beat := by
  constructor
  · intro h
    cases hphase : s.phase with
    | receiving =>
        cases interval with
        | none => simp [timeout, hphase] at h
        | some period =>
            simp only [timeout, hphase] at h
            cases h
            exact ⟨rfl, ⟨period, rfl⟩, rfl⟩
    | _ => simp [timeout, hphase] at h
  · rintro ⟨hphase, ⟨period, rfl⟩, rfl⟩
    simp only [timeout, hphase]

lemma transmit_eq_some {k : ℕ} (h : s.transmit k = some s') :
    (s.phase ≠ .receiving ∧ s.phase ≠ .exited) ∧
      s' = { s with wire := s.wire ++ s.buffer.take k, buffer := s.buffer.drop k } := by
  cases hphase : s.phase with
  | receiving => simp [transmit, hphase] at h
  | exited => simp [transmit, hphase] at h
  | _ =>
      simp only [transmit, hphase] at h
      cases h
      exact ⟨by simp, rfl⟩

/-- `writer.send` returns for an item of the caller or for a heart-beat. -/
lemma finish_eq_some {r : Except ε Unit} (h : s.finish r = some s') :
    s.MayReturn r ∧
      ((∃ n item, s.phase = .writing n item ∧
          s' = { s with
            phase := afterSend r
            oneshots := Function.update s.oneshots n (.sent r) }.note [.finished (.own n item) r]) ∨
        (s.phase = .beating ∧ s' = { s with phase := afterSend r }.note [.finished .beat r])) := by
  obtain ⟨hreturn, h⟩ := Option.ite_none_right_eq_some.1 h
  refine ⟨hreturn, ?_⟩
  cases hphase : s.phase with
  | writing n item =>
      rw [hphase] at h
      cases h
      exact Or.inl ⟨n, item, rfl, rfl⟩
  | beating =>
      rw [hphase] at h
      cases h
      exact Or.inr ⟨rfl, rfl⟩
  | _ => simp [hphase] at h

lemma shutDown_eq_some {r : Except ε Unit} (h : s.shutDown r = some s') :
    s.phase = .closing ∧
      s' = { s with
        phase := .exited
        channel := ch.dropReceiver s.channel
        oneshots := cancelQueued (ch.queue s.channel) s.oneshots }.note [.shutDown r] := by
  cases hphase : s.phase with
  | closing =>
      simp only [shutDown, hphase] at h
      cases h
      exact ⟨rfl, rfl⟩
  | _ => simp [shutDown, hphase] at h

lemma move_receive (h : s.receive = some s') : Move interval s s' := by
  obtain ⟨hphase, ⟨n, item, channel, hnext, rfl⟩ | ⟨hnext, rfl⟩⟩ := receive_eq_some h
  · exact .receive hphase hnext
  · exact .leave hphase hnext

lemma move_timeout (h : s.timeout interval = some s') : Move interval s s' := by
  obtain ⟨hphase, ⟨period, hinterval⟩, rfl⟩ := timeout_eq_some_iff.1 h
  exact .timeout hphase hinterval

lemma move_transmit {k : ℕ} (h : s.transmit k = some s') : Move interval s s' := by
  obtain ⟨hphase, rfl⟩ := transmit_eq_some h
  exact .transmit k hphase

lemma move_finish {r : Except ε Unit} (h : s.finish r = some s') : Move interval s s' := by
  obtain ⟨hreturn, ⟨n, item, hphase, rfl⟩ | ⟨hphase, rfl⟩⟩ := finish_eq_some h
  · exact .finish r hphase hreturn
  · exact .finishBeat r hphase hreturn

lemma move_shutDown {r : Except ε Unit} (h : s.shutDown r = some s') : Move interval s s' := by
  obtain ⟨hphase, rfl⟩ := shutDown_eq_some h
  exact .shutDown r hphase

end Pump

/-- **Every step is made of moves.** -/
theorem refines_move (interval : Option ℕ) :
    Refines (fun s : Pumped ch ε => s.CallOk) (step interval) (Move interval) := by
  intro s a s' hcall h
  cases a with
  | pollReady =>
      obtain ⟨hidle, ⟨⟩⟩ := Option.ite_none_right_eq_some.1 h
      exact moves_pollReady hidle
  | startSend item =>
      obtain ⟨⟨hidle, hready⟩, ⟨⟩⟩ := Option.ite_none_right_eq_some.1 h
      exact moves_startSend hidle hready item
  | pollFlush =>
      obtain ⟨hidle, ⟨⟩⟩ := Option.ite_none_right_eq_some.1 h
      exact moves_pollFlush hidle
  | pollClose =>
      obtain ⟨hidle, ⟨⟩⟩ := Option.ite_none_right_eq_some.1 h
      exact moves_pollClose hidle
  | call flush item =>
      obtain ⟨hidle, ⟨⟩⟩ := Option.ite_none_right_eq_some.1 h
      exact .single (.await _ (by simp) (by simp))
  | pollCall => exact moves_pollCall hcall h
  | dropCall =>
      have hdrop : s' = { s with call := .none } := by
        cases hs : s.call <;> simp_all [step]
      rw [hdrop]
      exact .single (Move.awaitNone _ s)
  | dropTransport =>
      obtain ⟨hidle, ⟨⟩⟩ := Option.ite_none_right_eq_some.1 h
      exact (ReflTransGen.single .dropTransport).tail .closeChannel
  | receive => exact .single (move_receive h)
  | timeout => exact .single (move_timeout h)
  | transmit k => exact .single (move_transmit h)
  | finish r => exact .single (move_finish h)
  | shutDown r => exact .single (move_shutDown h)

end Pumped

end AsyncStomp
