/-
# What the caller leaves alone

Whatever the caller does, the pump stays where it is, its writer keeps what it has, and no oneshot
is answered (`Pumped.leavesPump_of_caller`).  On a channel that is closed the caller cannot do
anything at all.
-/
import AsyncStomp.Client.Pump.Sound

namespace AsyncStomp

open Tasks

/-- The events that an operation of the caller records: what it returned, and what it found out
about the items. -/
def Event.OfOp {ε : Type} (op : Op) : Event ε → Prop
  | .answered op' _ => op' = op
  | .handed _ | .finished _ _ | .shutDown _ => False
  | _ => True

namespace Pumped

variable {ch : Mpsc (ℕ × Item)} {ε : Type} {s s' s'' : Pumped ch ε} {interval : Option ℕ}

/-- The actions of the pump and of its writer. -/
def Action.ofPump : Action ε → Bool
  | .receive | .timeout | .transmit _ | .finish _ | .shutDown _ => true
  | _ => false

/-- The operation that an action of the caller is part of. -/
def Action.op : Action ε → Op
  | .pollReady => .pollReady
  | .startSend _ => .startSend
  | .pollFlush => .pollFlush
  | .pollClose => .pollClose
  | _ => .future

/-- What an operation of the caller's half of a connection does to the other one: nothing. -/
structure LeavesPump (op : Op) (s s' : Pumped ch ε) : Prop where
  phase : s'.phase = s.phase
  buffer : s'.buffer = s.buffer
  wire : s'.wire = s.wire
  oneshots : s'.oneshots = s.oneshots
  log : ∃ evs, s'.log = s.log ++ evs ∧ ∀ ev ∈ evs, ev.OfOp op
  /-- A closed channel stays closed, and nothing gets into it. -/
  closed : ch.isOpen s.channel = false → ch.isOpen s'.channel = false ∧
    ch.queue s'.channel = ch.queue s.channel ∧ accepted s'.log = accepted s.log

variable {op : Op}

namespace LeavesPump

lemma refl (op : Op) (s : Pumped ch ε) : LeavesPump op s s :=
  ⟨rfl, rfl, rfl, rfl, ⟨[], (List.append_nil _).symm, by simp⟩, fun h => ⟨h, rfl, rfl⟩⟩

lemma trans (h : LeavesPump op s s') (h' : LeavesPump op s' s'') : LeavesPump op s s'' where
  phase := h'.phase.trans h.phase
  buffer := h'.buffer.trans h.buffer
  wire := h'.wire.trans h.wire
  oneshots := h'.oneshots.trans h.oneshots
  log := by
    obtain ⟨evs, hlog, hevs⟩ := h.log
    obtain ⟨evs', hlog', hevs'⟩ := h'.log
    refine ⟨evs ++ evs', by rw [hlog', hlog, List.append_assoc], fun ev hev => ?_⟩
    rcases List.mem_append.1 hev with hev | hev
    · exact hevs ev hev
    · exact hevs' ev hev
  closed hclosed := by
    obtain ⟨hmid, hqueue, haccepted⟩ := h.closed hclosed
    obtain ⟨hlater, hqueue', haccepted'⟩ := h'.closed hmid
    exact ⟨hlater, hqueue'.trans hqueue, haccepted'.trans haccepted⟩

/-- An event is recorded. -/
lemma note (h : LeavesPump op s s') {ev : Event ε} (hev : ev.OfOp op)
    (hquiet : accepted [ev] = []) : LeavesPump op s (s'.note [ev]) :=
  h.trans ⟨rfl, rfl, rfl, rfl, ⟨[ev], rfl, fun _ he => List.mem_singleton.1 he ▸ hev⟩,
    fun hclosed => ⟨hclosed, rfl, accepted_quiet hquiet⟩⟩

/-- Nothing is recorded, and the channel is at most closed. -/
lemma of_eq (hphase : s'.phase = s.phase) (hbuffer : s'.buffer = s.buffer)
    (hwire : s'.wire = s.wire) (honeshots : s'.oneshots = s.oneshots) (hlog : s'.log = s.log)
    (hchannel : s'.channel = s.channel ∨ s'.channel = ch.closeChannel s.channel) :
    LeavesPump op s s' := by
  refine ⟨hphase, hbuffer, hwire, honeshots, ⟨[], by rw [hlog, List.append_nil], by simp⟩, ?_⟩
  intro h
  rcases hchannel with heq | heq
  · rw [heq, hlog]
    exact ⟨h, rfl, rfl⟩
  · rw [heq, hlog]
    exact ⟨ch.isOpen_closeChannel _, ch.queue_closeChannel _, rfl⟩

lemma handed_eq (h : LeavesPump op s s') : handed s'.log = handed s.log := by
  obtain ⟨evs, hlog, hevs⟩ := h.log
  have hnone : handed evs = [] := by
    refine List.filterMap_eq_nil_iff.2 fun ev hev => ?_
    have hop := hevs ev hev
    cases ev with
    | handed e => exact absurd hop id
    | _ => rfl
  rw [hlog, handed_append, hnone, List.append_nil]

end LeavesPump

/-! ### Operations -/

lemma leaves_pollFlush (op : Op) (s : Pumped ch ε) : LeavesPump op s s.pollFlush.2 := by
  have htaken : LeavesPump op s { s with pending := none } :=
    .of_eq rfl rfl rfl rfl rfl (Or.inl rfl)
  rcases s.pollFlush_cases with h | ⟨-, h⟩ | ⟨n, -, -, h⟩ | ⟨n, e, -, -, h⟩
  · rw [h]
    exact .refl op s
  · rw [h]
    exact .refl op s
  · rw [h]
    exact htaken.note trivial rfl
  · rw [h]
    exact htaken.note trivial rfl

lemma leaves_answer {p : Poll (Report ε) × Pumped ch ε} (h : LeavesPump op s p.2) :
    LeavesPump op s (answer op p) := by
  obtain ⟨r, s₁⟩ := p
  cases r with
  | pending => exact h
  | ready r => exact h.note rfl rfl

lemma leaves_pollReady (op : Op) (s : Pumped ch ε) : LeavesPump op s s.pollReady.2 := by
  have hflush := s.leaves_pollFlush op
  rw [pollReady]
  rcases hp : s.pollFlush with ⟨_ | _ | ⟨⟩, s₁⟩
  · rw [hp] at hflush
    exact hflush
  · rw [hp] at hflush
    exact hflush
  · rw [hp] at hflush
    rcases hready : ch.pollReady s₁.channel with _ | _ | ⟨⟩
    · simpa only [hready] using hflush
    · simpa only [hready] using hflush
    · simp only [hready]
      exact hflush.trans (.of_eq rfl rfl rfl rfl rfl (Or.inl rfl))

lemma leaves_startSend (op : Op) (s : Pumped ch ε) (item : Item) :
    LeavesPump op s (s.startSend item).2 := by
  have hready : LeavesPump op s { s with ready := false } := .of_eq rfl rfl rfl rfl rfl (Or.inl rfl)
  rw [startSend]
  cases hsend : ch.startSend s.channel (s.fresh, item) with
  | error e => exact hready.note trivial rfl
  | ok channel =>
      refine ⟨rfl, rfl, rfl, rfl, ⟨_, rfl, by simp [Event.OfOp]⟩, fun hclosed => ?_⟩
      -- only an open channel takes an item
      rw [(ch.startSend_ok hsend).1] at hclosed
      cases hclosed

lemma leaves_pollClose (op : Op) (s : Pumped ch ε) : LeavesPump op s s.pollClose.2 := by
  have hflush := s.leaves_pollFlush op
  rw [pollClose]
  rcases hp : s.pollFlush with ⟨_ | _ | ⟨⟩, s₁⟩
  · rw [hp] at hflush
    exact hflush
  · rw [hp] at hflush
    exact hflush
  · rw [hp] at hflush
    exact hflush.trans (.of_eq rfl rfl rfl rfl rfl (Or.inr rfl))

lemma leaves_pollCall (h : s.pollCall = some s') : LeavesPump .future s s' := by
  have hcalls : ∀ (s₁ : Pumped ch ε) call, LeavesPump .future s₁ { s₁ with call := call } :=
    fun s₁ call => .of_eq rfl rfl rfl rfl rfl (Or.inl rfl)
  have hanswered : ∀ (s₁ : Pumped ch ε) r,
      LeavesPump .future s₁ ({ s₁ with call := .none }.note [.answered .future r]) := fun s₁ r =>
    (hcalls s₁ .none).note rfl rfl
  rw [pollCall] at h
  cases hcall : s.call with
  | none => simp [hcall] at h
  | readying flush item =>
      have hready := s.leaves_pollReady .future
      rcases hp : s.pollReady with ⟨_ | _ | ⟨⟩, s₁⟩ <;> rw [hp] at hready <;>
        simp only [hcall, hp] at h <;> cases h
      · exact hready
      · exact hready.trans (hanswered _ _)
      · exact hready.trans (hcalls _ _)
  | starting flush item =>
      have hsend := s.leaves_startSend .future item
      rcases hp : s.startSend item with ⟨_ | ⟨⟩, s₁⟩
      · rw [hp] at hsend
        simp only [hcall, hp] at h
        cases h
        exact hsend.trans (hanswered _ _)
      · rw [hp] at hsend
        simp only [hcall, hp] at h
        cases flush with
        | true =>
            cases h
            exact hsend.trans (hcalls _ _)
        | false =>
            cases h
            exact hsend.trans (hanswered _ _)
  | flushing n item =>
      have hflush := s.leaves_pollFlush .future
      rcases hp : s.pollFlush with ⟨_ | _ | ⟨⟩, s₁⟩ <;> rw [hp] at hflush <;>
        simp only [hcall, hp] at h <;> cases h
      · exact hflush
      · exact hflush.trans (hanswered _ _)
      · have hsent : LeavesPump .future s (Pumped.note _ [.sent n item]) :=
          (hflush.trans (hanswered s₁ (.ok ()))).note trivial rfl
        rwa [note_note] at hsent

/-- **The caller leaves the pump alone**, whatever it does. -/
theorem leavesPump_of_caller {a : Action ε} (h : s.step interval a = some s')
    (ha : a.ofPump = false) : LeavesPump a.op s s' := by
  cases a with
  | pollReady =>
      obtain ⟨-, ⟨⟩⟩ := Option.ite_none_right_eq_some.1 h
      exact leaves_answer (s.leaves_pollReady _)
  | startSend item =>
      obtain ⟨-, ⟨⟩⟩ := Option.ite_none_right_eq_some.1 h
      have hsend : LeavesPump .startSend s ((s.startSend item).map Poll.ready id).2 :=
        s.leaves_startSend _ item
      exact leaves_answer hsend
  | pollFlush =>
      obtain ⟨-, ⟨⟩⟩ := Option.ite_none_right_eq_some.1 h
      exact leaves_answer (s.leaves_pollFlush _)
  | pollClose =>
      obtain ⟨-, ⟨⟩⟩ := Option.ite_none_right_eq_some.1 h
      exact leaves_answer (s.leaves_pollClose _)
  | call flush item =>
      obtain ⟨-, ⟨⟩⟩ := Option.ite_none_right_eq_some.1 h
      exact .of_eq rfl rfl rfl rfl rfl (Or.inl rfl)
  | pollCall => exact leaves_pollCall h
  | dropCall =>
      have hdrop : s' = { s with call := .none } := by
        cases hs : s.call <;> simp_all [step]
      rw [hdrop]
      exact .of_eq rfl rfl rfl rfl rfl (Or.inl rfl)
  | dropTransport =>
      obtain ⟨-, ⟨⟩⟩ := Option.ite_none_right_eq_some.1 h
      exact .of_eq rfl rfl rfl rfl rfl (Or.inr rfl)
  | _ => cases ha

end Pumped

end AsyncStomp
