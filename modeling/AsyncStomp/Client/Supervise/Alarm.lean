/-
# When a server is declared dead

Supervision as a failure detector.  However slowly the caller polls, only a server is declared dead
that has sent nothing for more than two of its intervals (`silent_of_alarm`); and a caller that
waits for a message, and polls when it is woken, does not wait for longer than three intervals after
it has last read anything (`detected_of_run`).  For this the ticker has to wake it, and is part of
the connection here.
-/
import AsyncStomp.Client.Supervise.Sound

namespace AsyncStomp

open Tasks

namespace ClientTransport

variable {codec : ClientCodec} {leftover : Bytes} {quiet : ℕ} {incoming : Option ℕ}
  {automatic : Bool} {t t' : ClientTransport}

/-! ### Steps -/

/-- The events that `poll_server_timeout` records. -/
def Event.ofCheck : Event → Bool
  | .pending | .yielded (.error (.noData _ _)) => true
  | _ => false

lemma ofCheck_pollServerTimeout (t : ClientTransport) : t.pollServerTimeout.ofCheck = true := by
  rcases t.pollServerTimeout_cases with hev | ⟨_, -, -, hev⟩ <;> rw [hev] <;> rfl

/-- A move calls `poll_server_timeout`, with nothing to read, or records nothing of it. -/
lemma Move.events_cases (hm : Move t t') :
    (t.stage = .reading ∧ t.unread = [] ∧ t' = t.advance t.reader .idle [t.pollServerTimeout]) ∨
      ∃ evs, t'.log = t.log ++ evs ∧ ∀ ev ∈ evs, ev.ofCheck = false := by
  have hone : ∀ ev : Event, ev.ofCheck = false → ∀ e ∈ [ev], e.ofCheck = false := fun ev hev e he =>
    List.mem_singleton.1 he ▸ hev
  cases hm with
  | quiet hstage hunread => exact Or.inl ⟨hstage, hunread, rfl⟩
  | hangUp => exact Or.inr ⟨[], (List.append_nil _).symm, by simp⟩
  | start | starve => exact Or.inr ⟨[], rfl, by simp⟩
  | finish _ hevents =>
      rcases hevents with rfl | rfl
      · exact Or.inr ⟨_, rfl, hone _ rfl⟩
      · exact Or.inr ⟨_, rfl, by simp [Event.ofCheck]⟩
  | @fail r e _ _ _ hends =>
      refine Or.inr ⟨_, rfl, hone _ ?_⟩
      cases e with
      | noData => cases hends
      | _ => rfl
  | _ => exact Or.inr ⟨_, rfl, hone _ rfl⟩

/-- The stream ends with an event that says so. -/
lemma Move.ended_cases (hm : Move t t') (h : t'.stage = .ended) :
    t.stage = .ended ∨ ∃ evs, t'.log = t.log ++ (evs ++ [.ended]) := by
  cases hm with
  | arrive | hangUp | tick => exact Or.inl h
  | finish _ hevents =>
      right
      rcases hevents with rfl | rfl
      · exact ⟨[], rfl⟩
      · exact ⟨[.read []], rfl⟩
  | start =>
      have hstage : (if t.reader.readable then Stage.decoding else .reading) = .ended := h
      split at hstage <;> cases hstage
  | _ => cases h

/-- Time does not run backwards. -/
lemma Move.clock_le (hm : Move t t') : t.clock ≤ t'.clock := by
  cases hm with
  | tick d => exact Nat.le_add_right _ _
  | _ => exact Nat.le_refl _

/-- The last read stays where it is, or is now. -/
lemma Move.lastRead_cases (hm : Move t t') :
    t'.reader.lastRead = t.reader.lastRead ∨ t'.reader.lastRead = t.clock := by
  cases hm with
  | finish hlast | fail _ hlast =>
      left
      rwa [reader_advance]
  | @receive bs rest hstage hunread hne =>
      right
      have hempty : bs.isEmpty = false := List.isEmpty_eq_false_iff.2 hne
      show (Transport.setReader t.transport _).reader.lastRead = _
      rw [Transport.reader_setReader]
      simp [pollRead, hempty]
  | eof =>
      left
      rw [reader_advance]
      rfl
  | start | yield | starve | quiet =>
      left
      rw [reader_advance]
  | _ => exact Or.inl rfl

/-! ### No false alarm -/

/-- The time since a byte has last arrived, with `quiet` on the clock before. -/
def silentFor (quiet : ℕ) (log : List Event) : ℕ :=
  log.foldl (fun silent ev =>
    match ev with
    | .ticked d => silent + d
    | .arrived bs => if bs.isEmpty then silent else 0
    | _ => silent) quiet

lemma silentFor_append (quiet : ℕ) (xs ys : List Event) :
    silentFor quiet (xs ++ ys) = silentFor (silentFor quiet xs) ys :=
  List.foldl_append

/-- What has arrived is read later, if at all. -/
def ReadLater (quiet : ℕ) (t : ClientTransport) : Prop :=
  t.unread = [] → quietFor quiet t.log ≤ silentFor quiet t.log

/-- Nothing arrives, and a read starts the time anew. -/
lemma ReadLater.append (h : ReadLater quiet t) (hunread : t.unread = []) {evs : List Event}
    (hquiet : ∀ q, quietFor q evs ≤ q) (hsilent : ∀ q, silentFor q evs = q) :
    quietFor quiet (t.log ++ evs) ≤ silentFor quiet (t.log ++ evs) := by
  rw [quietFor_append, silentFor_append, hsilent]
  exact (hquiet _).trans (h hunread)

lemma ReadLater.preserve (h : ReadLater quiet t) (hm : Move t t') : ReadLater quiet t' := by
  intro hunread
  cases hm with
  | arrive bs =>
      obtain ⟨hold, rfl⟩ := List.append_eq_nil_iff.1 hunread
      exact h.append hold (fun _ => Nat.le_refl _) fun _ => rfl
  | hangUp => exact h hunread
  | tick d =>
      show quietFor quiet (t.log ++ _) ≤ silentFor quiet (t.log ++ _)
      rw [quietFor_append, silentFor_append]
      exact Nat.add_le_add_right (h hunread) d
  | finish _ hevents =>
      rcases hevents with rfl | rfl <;> exact h.append hunread (fun _ => Nat.le_refl _) fun _ => rfl
  | @receive bs rest hstage _ hne =>
      have hempty : bs.isEmpty = false := List.isEmpty_eq_false_iff.2 hne
      have hzero : quietFor quiet (t.log ++ [.read bs]) = 0 := by
        rw [quietFor_append]
        simp only [quietFor, List.foldl_cons, List.foldl_nil, hempty, Bool.false_eq_true, if_false]
      exact hzero.trans_le (Nat.zero_le _)
  | quiet =>
      refine h.append hunread (fun q => ?_) fun q => ?_
      · rcases t.pollServerTimeout_cases with hev | ⟨_, -, -, hev⟩ <;> rw [hev] <;>
          exact Nat.le_refl _
      · rcases t.pollServerTimeout_cases with hev | ⟨_, -, -, hev⟩ <;> rw [hev] <;> rfl
  | _ => exact h.append hunread (fun _ => Nat.le_refl _) fun _ => rfl

/-- An alarm is about a server that has sent nothing for more than two intervals. -/
def SilentAlarm (quiet : ℕ) (log : List Event) : Event → Prop
  | .yielded (.error (.noData _ p)) => 2 * p < silentFor quiet log
  | _ => True

lemma silentAlarm_of_not_ofCheck {log : List Event} {ev : Event} (h : ev.ofCheck = false) :
    SilentAlarm quiet log ev := by
  cases ev with
  | yielded r =>
      cases r with
      | error e =>
          cases e with
          | noData => cases h
          | _ => trivial
      | ok => trivial
  | _ => trivial

lemma always_append_of {Q : List Event → Event → Prop} {log evs : List Event} (h : Always Q log)
    (hevs : ∀ l, ∀ ev ∈ evs, Q l ev) : Always Q (log ++ evs) := by
  induction evs generalizing log with
  | nil => rwa [List.append_nil]
  | cons ev evs ih =>
      rw [List.append_cons]
      refine ih (always_concat.2 ⟨h, hevs _ ev (List.mem_cons_self ..)⟩) fun l e he => ?_
      exact hevs l e (List.mem_cons_of_mem _ he)

lemma always_silentAlarm_preserve (h : Always (SilentAlarm quiet) t.log)
    (hinv : Inv codec leftover quiet incoming automatic t) (hlater : ReadLater quiet t)
    (hm : Move t t') : Always (SilentAlarm quiet) t'.log := by
  rcases hm.events_cases with ⟨hstage, hunread, rfl⟩ | ⟨evs, hlog, hevs⟩
  · refine always_concat.2 ⟨h, ?_⟩
    have hjustified := hinv.justified_pollServerTimeout hstage hunread
    have hle := hlater hunread
    rcases t.pollServerTimeout_cases with hev | ⟨tol, -, -, hev⟩
    · rw [hev]
      trivial
    · rw [hev] at hjustified ⊢
      obtain ⟨⟨-, -, hq, hlt⟩, -⟩ := hjustified
      rw [hq] at hlt
      exact hlt.trans_le hle
  · rw [hlog]
    exact always_append_of h fun l ev hev => silentAlarm_of_not_ofCheck (hevs ev hev)

/-- **No server that sends often enough is declared dead.**  Whatever the caller does, and however
slowly, an alarm is raised only where nothing has arrived for more than two intervals. -/
theorem silent_of_alarm (codec : ClientCodec) (beats : Bool) (leftover : Bytes)
    (incoming : Option ℕ) (automatic : Bool) (lastRead quiet : ℕ) (as : List Action)
    (h : run step (established codec beats leftover incoming automatic lastRead quiet) as =
      some t) :
    Always (SilentAlarm quiet) t.log := by
  let I : ClientTransport → Prop := fun s => Inv codec leftover quiet incoming automatic s ∧
    ReadLater quiet s ∧ Always (SilentAlarm quiet) s.log
  have hstart : I (established codec beats leftover incoming automatic lastRead quiet) :=
    ⟨.established codec beats leftover incoming automatic lastRead quiet, fun _ => Nat.le_refl _,
      always_nil _⟩
  have hstep : ∀ s a s', s.step a = some s' → I s → I s' := by
    rintro s a s' hs ⟨hinv, hlater, halways⟩
    have hm := move_of_step a hs
    exact ⟨hinv.preserve hm, hlater.preserve hm, always_silentAlarm_preserve halways hinv hlater hm⟩
  exact (run_invariant hstep h hstart).2.2

/-- Bytes that arrive while nobody polls, and a server that falls silent. -/
def slowRun : List Action :=
  [.tick 19, .arrive [lf], .tick 30, .pollNext, .decode, .read 0, .decode, .read 0, .tick 21,
    .pollNext, .read 0]

theorem silent_of_alarm_slowRun :
    ∃ t, run step (established ⟨100⟩ false [] (some 10) true 0 0) slowRun = some t ∧
      t.log.getLast? = some (.yielded (.error (.noData 21 10))) ∧ Always (SilentAlarm 0) t.log :=
  ⟨_, rfl, by decide, silent_of_alarm ⟨100⟩ false [] (some 10) true 0 0 slowRun rfl⟩

/-- The actions of the caller and its reader. -/
def Action.ofPoll : Action → Bool
  | .pollNext | .decode | .read _ => true
  | _ => false

/-- Where the stream has not ended a poll can begin, or go on. -/
lemma exists_poll_step (h : t.stage ≠ .ended) :
    ∃ a : Action, a.ofPoll = true ∧ ∃ t', t.step a = some t' ∧ t'.clock = t.clock := by
  cases hstage : t.stage with
  | idle =>
      refine ⟨.pollNext, rfl, ?_⟩
      simp only [step, pollNext, hstage]
      split <;> exact ⟨_, rfl, rfl⟩
  | decoding =>
      refine ⟨.decode, rfl, ?_⟩
      rcases hdecode : t.codec.decode t.reader.buffer with ⟨e | _ | msg, buffer⟩ <;>
        simp only [step, decode, hstage, hdecode]
      · exact ⟨_, rfl, rfl⟩
      · split
        · split <;> exact ⟨_, rfl, rfl⟩
        · exact ⟨_, rfl, rfl⟩
      · exact ⟨_, rfl, rfl⟩
  | reading =>
      refine ⟨.read 0, rfl, ?_⟩
      cases hunread : t.unread with
      | cons b bs =>
          simp only [step, read, hstage, hunread]
          exact ⟨_, rfl, rfl⟩
      | nil =>
          cases hpeer : t.peer with
          | closed =>
              simp only [step, read, hstage, hunread, hpeer]
              split <;> exact ⟨_, rfl, rfl⟩
          | connected | failed =>
              simp only [step, read, hstage, hunread, hpeer]
              exact ⟨_, rfl, rfl⟩
  | ended => exact absurd hstage h

end ClientTransport

/-! ### The ticker -/

/-- A `tokio::time::Interval` that delays the ticks it has missed, as far as the transport relies on
it: when a tick is taken the next one is set, at most a period from now. -/
structure Ticker (period : ℕ) where
  rearm (deadline now : ℕ) : ℕ
  later : ∀ deadline now, deadline < rearm deadline now
  soon : ∀ deadline now, deadline ≤ now → rearm deadline now ≤ now + period

namespace Ticker

/-- `MissedTickBehavior::Delay`: a tick that is taken too late moves all those behind it. -/
def delay (period slack : ℕ) (hpos : 0 < period) : Ticker period where
  rearm deadline now := if deadline + slack < now then now + period else deadline + period
  later deadline now := by
    split <;> omega
  soon deadline now h := by
    split <;> omega

variable {period : ℕ} (ticker : Ticker period)

/-- At most `fuel` rounds of the loop over `poll_tick`. -/
def drainFuel (now : ℕ) : ℕ → ℕ → ℕ
  | 0, deadline => deadline
  | fuel + 1, deadline =>
      if deadline ≤ now then drainFuel now fuel (ticker.rearm deadline now) else deadline

/-- The deadline once `poll_tick` has returned `Pending`. -/
def drain (now deadline : ℕ) : ℕ := ticker.drainFuel now (now + 1 - deadline) deadline

lemma drainFuel_spec (now : ℕ) (fuel deadline : ℕ) (hfuel : now + 1 - deadline ≤ fuel)
    (hdeadline : deadline ≤ now + period) :
    now < ticker.drainFuel now fuel deadline ∧
      ticker.drainFuel now fuel deadline ≤ now + period := by
  induction fuel generalizing deadline with
  | zero => exact ⟨by rw [drainFuel]; omega, hdeadline⟩
  | succ fuel ih =>
      rw [drainFuel]
      by_cases hdue : deadline ≤ now
      · -- each round sets the deadline later
        have hlater := ticker.later deadline now
        rw [if_pos hdue]
        exact ih _ (by omega) (ticker.soon deadline now hdue)
      · rw [if_neg hdue]
        exact ⟨Nat.lt_of_not_le hdue, hdeadline⟩

/-- A ticker that was drained has its next tick ahead, at most a period from now. -/
lemma drain_spec {now deadline : ℕ} (hdeadline : deadline ≤ now + period) :
    now < ticker.drain now deadline ∧ ticker.drain now deadline ≤ now + period :=
  ticker.drainFuel_spec now _ deadline (Nat.le_refl _) hdeadline

end Ticker

/-! ### Detection -/

open ClientTransport in
/-- A connection under supervision, with its ticker and a caller that awaits it. -/
structure Watched extends ClientTransport where
  /-- When the ticker wakes the caller. -/
  deadline : ℕ
  /-- The last poll has returned `Pending`, and the caller has not given up. -/
  awaits : Bool

namespace Watched

open ClientTransport

/-- The connection that `connect` returns: the first tick is at once. -/
def start (codec : ClientCodec) (beats : Bool) (leftover : Bytes) (period lastRead quiet : ℕ) :
    Watched where
  toClientTransport := established codec beats leftover (some period) true lastRead quiet
  deadline := lastRead + quiet
  awaits := false

/-- What happens next. -/
inductive Action where
  | stream (a : ClientTransport.Action)
  /-- The caller drops the future. -/
  | giveUp

/-- Whether the caller awaits the stream after these events. -/
def awaitsAfter (awaits : Bool) (evs : List Event) : Bool :=
  evs.foldl (fun awaits ev =>
    match ev with
    | .pending => true
    | .yielded _ | .ended => false
    | _ => awaits) awaits

variable {period : ℕ}

/-- The connection after these events. -/
def after (ticker : Ticker period) (w : Watched) (t : ClientTransport) : Watched where
  toClientTransport := t
  -- `poll_server_timeout` drains the ticker
  deadline :=
    if (t.log.drop w.log.length).any Event.ofCheck then ticker.drain w.clock w.deadline
    else w.deadline
  awaits := awaitsAfter w.awaits (t.log.drop w.log.length)

/-- One step: a caller that awaits the stream is `late` by no more than this when it is woken. -/
def step (ticker : Ticker period) (late : ℕ) (w : Watched) : Action → Option Watched
  | .stream a =>
      match w.toClientTransport.step a with
      | some t =>
          if w.awaits = true → t.clock ≤ w.deadline + late then some (w.after ticker t) else none
      | none => none
  | .giveUp => if w.stage = .idle then some { w with awaits := false } else none

variable {ticker : Ticker period} {late : ℕ} {codec : ClientCodec} {leftover : Bytes} {quiet : ℕ}
  {w w' : Watched}

lemma step_eq_some {a : Action} (h : w.step ticker late a = some w') :
    (∃ b t, a = .stream b ∧ w.toClientTransport.step b = some t ∧
        (w.awaits = true → t.clock ≤ w.deadline + late) ∧ w' = w.after ticker t) ∨
      (w.stage = .idle ∧ w' = { w with awaits := false }) := by
  cases a with
  | stream b =>
      cases hstep : w.toClientTransport.step b with
      | none => simp [step, hstep] at h
      | some t =>
          simp only [step, hstep] at h
          obtain ⟨htime, ⟨⟩⟩ := Option.ite_none_right_eq_some.1 h
          exact Or.inl ⟨b, t, rfl, hstep, htime, rfl⟩
  | giveUp =>
      obtain ⟨hstage, ⟨⟩⟩ := Option.ite_none_right_eq_some.1 h
      exact Or.inr ⟨hstage, rfl⟩

/-- What holds of a connection under supervision at any time. -/
structure Ok (codec : ClientCodec) (leftover : Bytes) (quiet period late : ℕ) (w : Watched) :
    Prop where
  inv : Inv codec leftover quiet (some period) true w.toClientTransport
  deadline_le : w.deadline ≤ w.clock + period
  /-- A caller that awaits the stream has polled it while the server was not overdue. -/
  awaited : w.awaits = true → w.deadline ≤ w.reader.lastRead + 3 * period ∧
    w.clock ≤ w.deadline + late
  ended : w.stage = .ended → w.awaits = false

lemma drop_log {t t' : ClientTransport} {evs : List Event} (h : t'.log = t.log ++ evs) :
    t'.log.drop t.log.length = evs := by
  rw [h, List.drop_left]

/-- Only a poll that returns `Pending` makes the caller wait. -/
lemma awaits_of_awaitsAfter {awaits : Bool} {evs : List Event}
    (hevs : ∀ ev ∈ evs, ev.ofCheck = false) (h : awaitsAfter awaits evs = true) :
    awaits = true := by
  induction evs generalizing awaits with
  | nil => exact h
  | cons ev evs ih =>
      have hrest := ih (fun e he => hevs e (List.mem_cons_of_mem _ he)) h
      have hev := hevs ev (List.mem_cons_self ..)
      cases ev with
      | pending => cases hev
      | yielded | ended => cases hrest
      | _ => exact hrest

lemma awaitsAfter_ended (awaits : Bool) (evs : List Event) :
    awaitsAfter awaits (evs ++ [.ended]) = false := by
  rw [awaitsAfter, List.foldl_append]
  rfl

/-- A poll that returns `Pending` has found the server to be in time. -/
lemma quiet_le_of_pending {t : ClientTransport} {tolerance : ℕ} (h : t.supervise = some tolerance)
    (hpending : t.pollServerTimeout = .pending) : t.clock - t.reader.lastRead ≤ tolerance := by
  by_contra hquiet
  have hlt : tolerance < t.clock - t.transport.lastRead := by
    rw [t.transport.lastRead_eq]
    exact Nat.lt_of_not_le hquiet
  rw [pollServerTimeout] at hpending
  simp only [h, if_pos hlt] at hpending
  cases hpending

namespace Ok

lemma supervise_eq (h : w.Ok codec leftover quiet period late) : w.supervise = some (period * 2) :=
  h.inv.supervise_eq

lemma lastRead_le (h : w.Ok codec leftover quiet period late) : w.reader.lastRead ≤ w.clock := by
  rw [h.inv.clock_eq]
  exact Nat.le_add_right _ _

/-- The reader has found nothing to read, and the ticker is drained. -/
lemma check (h : w.Ok codec leftover quiet period late)
    (hm : Move w.toClientTransport (w.advance w.reader .idle [w.pollServerTimeout])) :
    (w.after ticker (w.advance w.reader .idle [w.pollServerTimeout])).Ok codec leftover quiet period
      late := by
  obtain ⟨hahead, hsoon⟩ := ticker.drain_spec h.deadline_le
  have hdeadline : (w.after ticker (w.advance w.reader .idle [w.pollServerTimeout])).deadline =
      ticker.drain w.clock w.deadline := by
    simp [after, ofCheck_pollServerTimeout]
  have hreader : (w.after ticker
      (w.advance w.reader .idle [w.pollServerTimeout])).reader = w.reader := reader_advance _ _ _ _
  have hclock : (w.after ticker
      (w.advance w.reader .idle [w.pollServerTimeout])).clock = w.clock := rfl
  refine ⟨h.inv.preserve hm, ?_, fun hawaits => ?_, nofun⟩
  · rw [hdeadline, hclock]
    exact hsoon
  · have hpending : w.pollServerTimeout = .pending := by
      rcases w.pollServerTimeout_cases with hev | ⟨_, -, -, hev⟩
      · exact hev
      · simp [after, hev, awaitsAfter] at hawaits
    have hquiet := quiet_le_of_pending h.supervise_eq hpending
    rw [hdeadline, hreader, hclock]
    omega

lemma preserve (h : w.Ok codec leftover quiet period late) {a : Action}
    (hstep : w.step ticker late a = some w') : w'.Ok codec leftover quiet period late := by
  rcases step_eq_some hstep with ⟨b, t, rfl, hb, htime, rfl⟩ | ⟨hstage, rfl⟩
  · have hm := move_of_step b hb
    rcases hm.events_cases with ⟨-, -, rfl⟩ | ⟨evs, hlog, hevs⟩
    · exact h.check hm
    have hdeadline : (w.after ticker t).deadline = w.deadline := by
      have hnone : evs.any Event.ofCheck = false := List.any_eq_false.2 fun ev hev => by
        simp [hevs ev hev]
      simp [after, drop_log hlog, hnone]
    have hawaits : (w.after ticker t).awaits = true → w.awaits = true := fun hw => by
      rw [after, drop_log hlog] at hw
      exact awaits_of_awaitsAfter hevs hw
    refine ⟨h.inv.preserve hm, ?_, fun hw => ⟨?_, ?_⟩, fun hended => ?_⟩
    · have hle := h.deadline_le
      have hclock := hm.clock_le
      rw [hdeadline]
      show w.deadline ≤ t.clock + period
      omega
    · have hle := (h.awaited (hawaits hw)).1
      have hlast := h.lastRead_le
      rw [hdeadline]
      show w.deadline ≤ t.reader.lastRead + 3 * period
      rcases hm.lastRead_cases with heq | heq <;> rw [heq]
      · exact hle
      · exact hle.trans (Nat.add_le_add_right hlast _)
    · rw [hdeadline]
      exact htime (hawaits hw)
    · rcases hm.ended_cases hended with hold | ⟨evs', hlog'⟩
      · exact Bool.eq_false_iff.2 fun hw =>
          Bool.false_ne_true ((h.ended hold).symm.trans (hawaits hw))
      · rw [after, drop_log hlog']
        exact awaitsAfter_ended _ _
  · exact ⟨h.inv, h.deadline_le, nofun, fun _ => rfl⟩

end Ok

lemma ok_start (codec : ClientCodec) (beats : Bool) (leftover : Bytes)
    (period late lastRead quiet : ℕ) :
    (start codec beats leftover period lastRead quiet).Ok codec leftover quiet period late :=
  ⟨.established codec beats leftover (some period) true lastRead quiet, Nat.le_add_right _ _, nofun,
    fun _ => rfl⟩

/-- **A dead server is found out.**  A caller that awaits the stream has read something in the last
three intervals, but for what it is late when it is woken; and time is not held up, for a poll can
begin or go on where it would be overdue. -/
theorem detected_of_run (ticker : Ticker period) (late : ℕ) (codec : ClientCodec) (beats : Bool)
    (leftover : Bytes) (lastRead quiet : ℕ) (as : List Action)
    (h : run (step ticker late) (start codec beats leftover period lastRead quiet) as = some w)
    (hawaits : w.awaits = true) :
    w.clock ≤ w.reader.lastRead + 3 * period + late ∧
      ∃ a : ClientTransport.Action,
        a.ofPoll = true ∧ (w.step ticker late (.stream a)).isSome := by
  have hok : w.Ok codec leftover quiet period late := run_invariant
    (fun _ _ _ hstep hw => hw.preserve hstep) h
      (ok_start codec beats leftover period late lastRead quiet)
  obtain ⟨hdeadline, hclock⟩ := hok.awaited hawaits
  have hstage : w.stage ≠ .ended := fun hended => by
    rw [hok.ended hended] at hawaits
    cases hawaits
  obtain ⟨a, hpoll, t, hstep, hsame⟩ := exists_poll_step hstage
  refine ⟨by omega, a, hpoll, ?_⟩
  have htime : w.awaits = true → t.clock ≤ w.deadline + late := fun _ => hsame ▸ hclock
  simp only [step, hstep, if_pos htime, Option.isSome_some]

/-- A server that is heard once and then falls silent, and a caller that is woken late. -/
def silentRun : List Action :=
  [.stream .pollNext, .stream .decode, .stream (.read 0), .stream (.tick 10),
    .stream (.arrive [lf]), .stream .pollNext, .stream (.read 0), .stream .decode,
    .stream (.read 0), .stream (.tick 12), .stream .pollNext, .stream (.read 0),
    .stream (.tick 8), .stream .pollNext, .stream (.read 0), .stream (.tick 13)]

/-- The ticker of `silentRun`. -/
def slackTicker : Ticker 10 := .delay 10 5 (by decide)

theorem detected_of_run_silentRun :
    ∃ w, run (step slackTicker 3) (start ⟨100⟩ false [] 10 0 0) silentRun = some w ∧
      w.reader.lastRead = 10 ∧ w.clock = 43 ∧
        w.clock ≤ w.reader.lastRead + 3 * 10 + 3 ∧
          ∃ a : ClientTransport.Action,
            a.ofPoll = true ∧ (w.step slackTicker 3 (.stream a)).isSome := by
  have hfinal : (run (step slackTicker 3) (start ⟨100⟩ false [] 10 0 0) silentRun).map
      (fun w => (w.awaits, w.reader.lastRead, w.clock)) = some (true, 10, 43) := by
    decide
  obtain ⟨w, hrun, heq⟩ := Option.map_eq_some_iff.1 hfinal
  obtain ⟨hawaits, hlast, hclock⟩ : w.awaits = true ∧ w.reader.lastRead = 10 ∧ w.clock = 43 := by
    simpa using heq
  have hdetected := detected_of_run slackTicker 3 ⟨100⟩ false [] 0 0 silentRun hrun hawaits
  exact ⟨w, hrun, hlast, hclock, hdetected.1, hdetected.2⟩

end Watched

end AsyncStomp
