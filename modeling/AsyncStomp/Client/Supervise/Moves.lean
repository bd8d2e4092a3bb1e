/-
# What a step of the stream can do

Every step is one of a few moves (`ClientTransport.move_of_step`); the ways in which the
stream fails, or ends, are one move each.
-/
import AsyncStomp.Client.Supervise.Basic

namespace AsyncStomp

namespace ClientTransport

@[simp] lemma reader_advance (t : ClientTransport) (r : Reader) (stage : Stage)
    (events : List Event) : (t.advance r stage events).reader = r :=
  Transport.reader_setReader _ _

@[simp] lemma log_advance (t : ClientTransport) (r : Reader) (stage : Stage)
    (events : List Event) : (t.advance r stage events).log = t.log ++ events := rfl

/-- The check for a quiet server raises an alarm or not. -/
lemma pollServerTimeout_cases (t : ClientTransport) :
    t.pollServerTimeout = .pending ∨
      ∃ tolerance, t.supervise = some tolerance ∧ tolerance < t.clock - t.reader.lastRead ∧
        t.pollServerTimeout =
          .yielded (.error (.noData (t.clock - t.reader.lastRead) (tolerance / 2))) := by
  cases hsupervise : t.supervise with
  | none =>
      left
      simp only [pollServerTimeout, hsupervise]
  | some tolerance =>
      have hlast : t.transport.lastRead = t.reader.lastRead := t.transport.lastRead_eq
      by_cases hquiet : tolerance < t.clock - t.reader.lastRead
      · right
        refine ⟨tolerance, rfl, hquiet, ?_⟩
        simp only [pollServerTimeout, hsupervise, hlast, if_pos hquiet]
      · left
        simp only [pollServerTimeout, hsupervise, hlast, if_neg hquiet]

/-- The moves of a connection. -/
inductive Move : ClientTransport → ClientTransport → Prop
  | arrive {t} (bs : Bytes) :
      Move t { t with unread := t.unread ++ bs, log := t.log ++ [.arrived bs] }
  | hangUp {t} (peer : Peer) : Move t { t with peer := peer }
  | tick {t} (d : ℕ) : Move t { t with clock := t.clock + d, log := t.log ++ [.ticked d] }
  /-- The stream ends. -/
  | finish {t r events} (hlast : r.lastRead = t.reader.lastRead)
      (hevents : events = [.ended] ∨ events = [.read [], .ended]) :
      Move t (t.advance r .ended events)
  /-- A poll begins where the last one has stopped. -/
  | start {t} (hstage : t.stage = .idle) (herrored : t.reader.errored = false) :
      Move t (t.advance t.reader (if t.reader.readable then .decoding else .reading) [])
  /-- A message is yielded. -/
  | yield {t msg buffer} (hstage : t.stage = .decoding)
      (hdecode : t.codec.decode t.reader.buffer = (.ok (some msg), buffer)) :
      Move t (t.advance { t.reader with buffer := buffer } .idle [.yielded (.ok msg)])
  /-- An error is yielded, and ends the stream. -/
  | fail {t r e} (hstage : t.stage = .decoding ∨ t.stage = .reading)
      (hlast : r.lastRead = t.reader.lastRead) (herrored : r.errored = true)
      (hends : endsStream (.yielded (.error e)) = true) :
      Move t (t.advance r .idle [.yielded (.error e)])
  /-- The decoder asks for more. -/
  | starve {t buffer} (hstage : t.stage = .decoding)
      (hdecode : t.codec.decode t.reader.buffer = (.ok none, buffer)) :
      Move t (t.advance { t.reader with buffer := buffer, readable := false } .reading [])
  /-- A read returns bytes. -/
  | receive {t bs rest} (hstage : t.stage = .reading) (hunread : t.unread = bs ++ rest)
      (hne : bs ≠ []) :
      Move t { t.advance { t.pollRead bs with eof := false, readable := true } .decoding
        [.read bs] with unread := rest }
  /-- A read finds the end of the input. -/
  | eof {t} (hstage : t.stage = .reading) :
      Move t (t.advance { t.pollRead [] with eof := true, readable := true } .decoding [.read []])
  /-- A read finds nothing. -/
  | quiet {t} (hstage : t.stage = .reading) (hunread : t.unread = []) :
      Move t (t.advance t.reader .idle [t.pollServerTimeout])

variable {t t' : ClientTransport}

lemma move_pollNext (h : t.pollNext = some t') : Move t t' := by
  cases hstage : t.stage with
  | idle =>
      cases herrored : t.reader.errored with
      | true =>
          simp only [pollNext, hstage, herrored, if_true] at h
          cases h
          exact .finish rfl (Or.inl rfl)
      | false =>
          simp only [pollNext, hstage, herrored, Bool.false_eq_true, if_false] at h
          cases h
          exact .start hstage herrored
  | _ => simp [pollNext, hstage] at h

lemma move_decode (h : t.decode = some t') : Move t t' := by
  cases hstage : t.stage with
  | decoding =>
      rcases hdecode : t.codec.decode t.reader.buffer with ⟨e | _ | msg, buffer⟩
      · simp only [decode, hstage, hdecode] at h
        cases h
        exact .fail (Or.inl hstage) rfl rfl rfl
      · by_cases heof : t.reader.eof = true
        · by_cases hempty : buffer.isEmpty = true
          · simp only [decode, hstage, hdecode, heof, hempty, if_true] at h
            cases h
            exact .finish rfl (Or.inl rfl)
          · simp only [decode, hstage, hdecode, heof, hempty, if_true] at h
            cases h
            exact .fail (Or.inl hstage) rfl rfl rfl
        · simp only [decode, hstage, hdecode, if_neg heof] at h
          cases h
          exact .starve hstage hdecode
      · simp only [decode, hstage, hdecode] at h
        cases h
        exact .yield hstage hdecode
  | _ => simp [decode, hstage] at h

lemma move_read {k : ℕ} (h : t.read k = some t') : Move t t' := by
  cases hstage : t.stage with
  | reading =>
      cases hunread : t.unread with
      | cons b bs =>
          simp only [read, hstage, hunread] at h
          cases h
          refine .receive hstage ?_ (by simp)
          rw [hunread, List.cons_append, List.take_append_drop]
      | nil =>
          cases hpeer : t.peer with
          | connected =>
              simp only [read, hstage, hunread, hpeer] at h
              cases h
              exact .quiet hstage hunread
          | closed =>
              by_cases heof : t.reader.eof = true
              · simp only [read, hstage, hunread, hpeer, heof, if_true] at h
                cases h
                exact .finish rfl (Or.inr rfl)
              · simp only [read, hstage, hunread, hpeer, heof] at h
                cases h
                exact .eof hstage
          | failed =>
              simp only [read, hstage, hunread, hpeer] at h
              cases h
              exact .fail (Or.inr hstage) rfl rfl rfl
  | _ => simp [read, hstage] at h

/-- **Every step is a move.** -/
theorem move_of_step (a : Action) (h : t.step a = some t') : Move t t' := by
  cases a with
  | arrive bs =>
      obtain ⟨-, ⟨⟩⟩ := Option.ite_none_right_eq_some.1 h
      exact .arrive bs
  | hangUp peer =>
      obtain ⟨-, ⟨⟩⟩ := Option.ite_none_right_eq_some.1 h
      exact .hangUp peer
  | tick d =>
      cases h
      exact .tick d
  | pollNext => exact move_pollNext h
  | decode => exact move_decode h
  | read k => exact move_read h

end ClientTransport

end AsyncStomp
