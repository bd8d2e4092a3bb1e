/-
# The connection is kept alive

What the beating is for.  A server that expects to hear from the client once in an interval gives up
on a connection that is quiet for too long.  As long as the pump is in its loop the socket takes a
byte often enough, whatever the caller does, and no more heart-beats are sent than intervals have
passed (`heard_of_run`).  How often is often enough depends on how late a timer may wake the pump
and on how long the socket may take.
-/
import AsyncStomp.Client.Pump.Progress
import AsyncStomp.Client.Pump.Timed
import AsyncStomp.Client.Supervise.Basic

namespace AsyncStomp

open Tasks

/-- By how much the surroundings of the pump fall behind. -/
structure Delays where
  /-- How late the timer may wake the pump. -/
  late : ℕ
  /-- How long one call of the writer may take. -/
  latency : ℕ

/-- A connection with its clock, where it is recorded when the pump was last active. -/
structure Kept (ch : Mpsc (ℕ × Item)) (ε : Type) extends Timed ch ε where
  /-- When the pump has last left the channel, to call its writer. -/
  left : ℕ
  /-- When the socket has last taken a byte. -/
  sentAt : ℕ

namespace Kept

variable {ch : Mpsc (ℕ × Item)} {ε : Type}

/-- `establish`, once the CONNECT has been written and the server has accepted it. -/
def start (ch : Mpsc (ℕ × Item)) (ε : Type) : Kept ch ε := ⟨.start ch ε, 0, 0⟩

/-- Until when the pump, or its writer, has to get on. -/
def deadline (period : ℕ) (d : Delays) (k : Kept ch ε) : Option ℕ :=
  match k.conn.phase with
  | .receiving => some (k.armed + period + d.late)
  | .writing _ _ | .beating => some (k.left + d.latency)
  | .closing | .exited => none

/-- At this time nobody is overdue. -/
def OnTime (period : ℕ) (d : Delays) (k : Kept ch ε) (clock : ℕ) : Prop :=
  ∀ time ∈ k.deadline period d, clock ≤ time

instance (period : ℕ) (d : Delays) (k : Kept ch ε) (clock : ℕ) :
    Decidable (k.OnTime period d clock) :=
  inferInstanceAs (Decidable (∀ time ∈ k.deadline period d, clock ≤ time))

/-- When the pump has last left the channel, if this happens next. -/
def leftAfter (k : Kept ch ε) : Pumped.Action ε → ℕ
  | .receive | .timeout => k.clock
  | _ => k.left

/-- When the socket has last taken a byte, if this happens next. -/
def sentAfter (k : Kept ch ε) : Pumped.Action ε → ℕ
  | .transmit n => if n = 0 ∨ k.conn.buffer = [] then k.sentAt else k.clock
  | _ => k.sentAt

/-- One step: time passes only as long as nobody is overdue. -/
def step (period : ℕ) (d : Delays) (k : Kept ch ε) : Timed.Action ε → Option (Kept ch ε)
  | .tick t =>
      if k.OnTime period d (k.clock + t) then some { k with clock := k.clock + t } else none
  | .act a => (k.toTimed.step (some period) (.act a)).map fun timed =>
      ⟨timed, k.leftAfter a, k.sentAfter a⟩

variable {period : ℕ} {d : Delays} {k k' : Kept ch ε}

/-- The time in which the server hears from the client at least once. -/
def gap (period : ℕ) (d : Delays) : ℕ := period + d.late + 2 * d.latency

/-- A step is one of the clock, while nobody is overdue, or one of the timed connection. -/
lemma step_eq_some {a : Timed.Action ε} (h : k.step period d a = some k') :
    (∃ t, a = .tick t ∧ k.OnTime period d (k.clock + t) ∧
        k' = { k with clock := k.clock + t }) ∨
      ∃ b conn, a = .act b ∧ k.toTimed.InTime (some period) b ∧
        k.conn.step (some period) b = some conn ∧
        k' = ⟨⟨conn, k.clock, if k.conn.phase = .receiving then k.armed else k.clock⟩,
          k.leftAfter b, k.sentAfter b⟩ := by
  cases a with
  | tick t =>
      obtain ⟨htime, ⟨⟩⟩ := Option.ite_none_right_eq_some.1 h
      exact Or.inl ⟨t, rfl, htime, rfl⟩
  | act b =>
      obtain ⟨timed, htimed, rfl⟩ := Option.map_eq_some_iff.1 h
      rcases Timed.step_eq_some htimed with ⟨_, hb, -⟩ | ⟨_, conn, ⟨⟩, htime, hconn, rfl⟩
      · cases hb
      · exact Or.inr ⟨b, conn, rfl, htime, hconn, rfl⟩

lemma deadline_receiving (h : k.conn.phase = .receiving) :
    k.deadline period d = some (k.armed + period + d.late) := by
  simp only [deadline, h]

lemma deadline_busy (h : k.conn.phase.inHand ≠ []) :
    k.deadline period d = some (k.left + d.latency) := by
  cases hphase : k.conn.phase with
  | writing | beating => simp only [deadline, hphase]
  | _ => simp [hphase, Phase.inHand] at h

/-! ### The invariant -/

/-- How many heart-beats were sent. -/
def beatsSent (log : List (Event ε)) : ℕ := (handed log).count .beat

/-- The pump is in its loop. -/
def InLoop (k : Kept ch ε) : Prop := k.conn.phase ≠ .closing ∧ k.conn.phase ≠ .exited

/-- What holds of the pump and the clock at any time. -/
structure Ok (period : ℕ) (d : Delays) (k : Kept ch ε) : Prop where
  armed_le : k.armed ≤ k.clock
  left_le : k.left ≤ k.clock
  /-- A pump at the channel has come there from the socket, or from the handshake. -/
  receiving : k.conn.phase = .receiving → k.armed ≤ k.sentAt + d.latency ∧
    k.clock ≤ k.armed + period + d.late
  /-- A pump that writes has not been away from the socket for too long, and writes something. -/
  busy : k.conn.phase.inHand ≠ [] → k.left ≤ k.sentAt + d.latency + period + d.late ∧
    k.clock ≤ k.left + d.latency ∧ (k.conn.buffer = [] → k.left ≤ k.sentAt)
  /-- The socket has taken a byte in each gap so far. -/
  sent : k.InLoop → k.sentAt ≤ k.conn.wire.length * gap period d
  /-- A whole interval has passed for each heart-beat. -/
  beats : beatsSent k.conn.log * period ≤ if k.conn.phase = .receiving then k.armed else k.clock

lemma bytes_ne_nil (item : Item) : item.bytes ≠ [] := by
  cases item <;> simp [Item.bytes, Frame.serialize]

lemma encode_ne_nil (item : Item) (dst : Bytes) : encode item dst ≠ [] := by
  rw [encode_eq]
  exact List.append_ne_nil_of_right_ne_nil _ (bytes_ne_nil item)

namespace Ok

/-- The server has heard from a pump in its loop. -/
lemma clock_le (h : k.Ok period d) (hloop : k.InLoop) : k.clock ≤ k.sentAt + gap period d := by
  rw [gap]
  cases hphase : k.conn.phase with
  | receiving =>
      have hreceiving := h.receiving hphase
      omega
  | closing => exact absurd hphase hloop.1
  | exited => exact absurd hphase hloop.2
  | _ =>
      have hbusy := h.busy (by simp [hphase, Phase.inHand])
      omega

lemma beats_le (h : k.Ok period d) : beatsSent k.conn.log * period ≤ k.clock := by
  refine h.beats.trans ?_
  split
  · exact h.armed_le
  · exact Nat.le_refl _

/-- Time passes. -/
lemma tick (h : k.Ok period d) {t : ℕ} (htime : k.OnTime period d (k.clock + t)) :
    Kept.Ok period d { k with clock := k.clock + t } := by
  refine ⟨Nat.le_add_right_of_le h.armed_le, Nat.le_add_right_of_le h.left_le, ?_, ?_, h.sent, ?_⟩
  · intro hphase
    exact ⟨(h.receiving hphase).1, htime _ (deadline_receiving hphase)⟩
  · intro hbusy
    obtain ⟨hleft, -, hbuffer⟩ := h.busy hbusy
    exact ⟨hleft, htime _ (deadline_busy hbusy), hbuffer⟩
  · refine h.beats.trans ?_
    split
    · exact Nat.le_refl _
    · exact Nat.le_add_right _ _

variable {conn : Pumped ch ε}

/-- The caller does something. -/
lemma caller {op : Op} (h : k.Ok period d) (hleaves : k.conn.LeavesPump op conn) :
    Kept.Ok period d ⟨⟨conn, k.clock, if k.conn.phase = .receiving then k.armed else k.clock⟩,
      k.left, k.sentAt⟩ := by
  refine ⟨?_, h.left_le, ?_, ?_, ?_, ?_⟩
  · show (if k.conn.phase = .receiving then k.armed else k.clock) ≤ k.clock
    split
    · exact h.armed_le
    · exact Nat.le_refl _
  · intro hphase
    have hfrom : k.conn.phase = .receiving := hleaves.phase.symm.trans hphase
    simpa only [if_pos hfrom] using h.receiving hfrom
  · intro hbusy
    have hfrom : k.conn.phase.inHand ≠ [] := hleaves.phase ▸ hbusy
    simpa only [hleaves.buffer] using h.busy hfrom
  · intro hloop
    have hfrom : k.InLoop := by rwa [InLoop, ← hleaves.phase]
    simpa only [hleaves.wire] using h.sent hfrom
  · have hbeats := h.beats
    rw [beatsSent] at hbeats ⊢
    simp only [hleaves.handed_eq, hleaves.phase]
    by_cases hphase : k.conn.phase = .receiving
    · simpa only [if_pos hphase] using hbeats
    · simpa only [if_neg hphase] using hbeats

/-- The pump leaves the channel with something to write, which is a heart-beat only after a whole
interval. -/
lemma hand (h : k.Ok period d) (hphase : k.conn.phase = .receiving) {phase : Phase} {e : Entry}
    (hin : phase.inHand ≠ []) (channel : ch.State)
    (hbeat : e = .beat → k.armed + period ≤ k.clock) :
    Kept.Ok period d ⟨⟨{ k.conn with channel := channel }.hand phase e, k.clock, k.armed⟩, k.clock,
      k.sentAt⟩ := by
  have hloop : k.InLoop := by simp [InLoop, hphase]
  have hne : phase ≠ .receiving := by
    rintro rfl
    exact hin rfl
  obtain ⟨harmed, hclock⟩ := h.receiving hphase
  refine ⟨h.armed_le, Nat.le_refl _, fun hto => absurd hto hne, fun _ => ⟨?_, ?_, ?_⟩, ?_, ?_⟩
  · show k.clock ≤ k.sentAt + d.latency + period + d.late
    omega
  · exact Nat.le_add_right _ _
  · exact fun hnil => absurd hnil (encode_ne_nil _ _)
  · exact fun _ => h.sent hloop
  · have hbeats := h.beats
    rw [if_pos hphase] at hbeats
    have hcount : beatsSent ({ k.conn with channel := channel }.hand phase e).log =
        beatsSent k.conn.log + if e = .beat then 1 else 0 := by
      simp [beatsSent, Pumped.hand, handed, List.count_singleton]
    show beatsSent ({ k.conn with channel := channel }.hand phase e).log * period ≤
      if phase = .receiving then k.armed else k.clock
    rw [hcount, if_neg hne, Nat.add_mul]
    have harmed_le := h.armed_le
    by_cases he : e = .beat
    · have hpassed := hbeat he
      rw [if_pos he]
      omega
    · rw [if_neg he]
      omega

/-- The pump leaves its loop, or goes on after it. -/
lemma outside (h : k.Ok period d) (hto : conn.phase = .closing ∨ conn.phase = .exited)
    (hhanded : handed conn.log = handed k.conn.log) {armed left sentAt : ℕ}
    (harmed : armed ≤ k.clock) (hleft : left ≤ k.clock) :
    Kept.Ok period d ⟨⟨conn, k.clock, armed⟩, left, sentAt⟩ := by
  have hbeats : beatsSent conn.log * period ≤ k.clock := by
    rw [beatsSent, hhanded]
    exact h.beats_le
  rcases hto with hto | hto
  · refine ⟨harmed, hleft, ?_, ?_, fun hloop => absurd hto hloop.1, ?_⟩
    · simp [hto]
    · simp [hto, Phase.inHand]
    · simpa [hto] using hbeats
  · refine ⟨harmed, hleft, ?_, ?_, fun hloop => absurd hto hloop.2, ?_⟩
    · simp [hto]
    · simp [hto, Phase.inHand]
    · simpa [hto] using hbeats

/-- The socket takes some bytes, or none. -/
lemma transmit (h : k.Ok period d) (hreceiving : k.conn.phase ≠ .receiving) (n : ℕ) :
    Kept.Ok period d ⟨⟨{ k.conn with
        wire := k.conn.wire ++ k.conn.buffer.take n
        buffer := k.conn.buffer.drop n }, k.clock, k.clock⟩, k.left,
      k.sentAfter (.transmit n)⟩ := by
  refine ⟨Nat.le_refl _, h.left_le, fun hphase => absurd hphase hreceiving, ?_, ?_, ?_⟩
  · intro hbusy
    obtain ⟨hleft, hclock, hbuffer⟩ := h.busy hbusy
    have hleft_le := h.left_le
    by_cases hnone : n = 0 ∨ k.conn.buffer = []
    · have hdrop : k.conn.buffer.drop n = k.conn.buffer := by
        rcases hnone with rfl | hnil
        · rfl
        · simp [hnil]
      simpa only [sentAfter, if_pos hnone, hdrop] using ⟨hleft, hclock, hbuffer⟩
    · simp only [sentAfter, if_neg hnone]
      refine ⟨?_, hclock, fun _ => hleft_le⟩
      omega
  · intro hloop
    have hfrom : k.InLoop := hloop
    have hsent := h.sent hfrom
    show k.sentAfter (.transmit n) ≤ (k.conn.wire ++ k.conn.buffer.take n).length * gap period d
    rw [List.length_append, Nat.add_mul]
    by_cases hnone : n = 0 ∨ k.conn.buffer = []
    · simp only [sentAfter, if_pos hnone]
      omega
    · -- a byte more stands for a gap more
      have hlen : 1 ≤ (k.conn.buffer.take n).length := by
        rw [not_or] at hnone
        have hpos := List.length_pos_iff.2 hnone.2
        rw [List.length_take]
        omega
      have hgap := Nat.mul_le_mul_right (gap period d) hlen
      have hclock := h.clock_le hfrom
      simp only [sentAfter, if_neg hnone]
      omega
  · have hbeats := h.beats_le
    show beatsSent k.conn.log * period ≤ if k.conn.phase = .receiving then k.clock else k.clock
    rwa [ite_self]

/-- The writer is done, and the pump is back at the channel. -/
lemma finish (h : k.Ok period d) (hbusy : k.conn.phase.inHand ≠ []) (hbuffer : k.conn.buffer = [])
    (hto : conn.phase = .receiving) (hhanded : handed conn.log = handed k.conn.log)
    (hwire : conn.wire = k.conn.wire) :
    Kept.Ok period d ⟨⟨conn, k.clock, k.clock⟩, k.left, k.sentAt⟩ := by
  obtain ⟨-, hclock, hsent⟩ := h.busy hbusy
  have hwritten := hsent hbuffer
  have hloop : k.InLoop := by
    constructor
    · intro hphase
      simp [hphase, Phase.inHand] at hbusy
    · intro hphase
      simp [hphase, Phase.inHand] at hbusy
  refine ⟨Nat.le_refl _, h.left_le, fun _ => ⟨?_, ?_⟩, ?_, fun _ => ?_, ?_⟩
  · show k.clock ≤ k.sentAt + d.latency
    omega
  · show k.clock ≤ k.clock + period + d.late
    omega
  · intro hin
    simp [hto, Phase.inHand] at hin
  · show k.sentAt ≤ conn.wire.length * gap period d
    rw [hwire]
    exact h.sent hloop
  · have hbeats := h.beats_le
    show beatsSent conn.log * period ≤ if conn.phase = .receiving then k.clock else k.clock
    rwa [beatsSent, hhanded, ite_self]

/-- **A step keeps the invariant.** -/
lemma preserve (h : k.Ok period d) {a : Timed.Action ε} (hstep : k.step period d a = some k') :
    k'.Ok period d := by
  rcases step_eq_some hstep with ⟨t, rfl, htime, rfl⟩ | ⟨b, conn, rfl, htime, hconn, rfl⟩
  · exact h.tick htime
  cases hb : b.ofPump with
  | false =>
      have hleft : k.leftAfter b = k.left := by cases b <;> first | rfl | cases hb
      have hsent : k.sentAfter b = k.sentAt := by cases b <;> first | rfl | cases hb
      rw [hleft, hsent]
      exact h.caller (Pumped.leavesPump_of_caller hconn hb)
  | true =>
      cases b with
      | receive =>
          obtain ⟨hphase, ⟨n, item, channel, -, rfl⟩ | ⟨-, rfl⟩⟩ := Pumped.receive_eq_some hconn
          · rw [if_pos hphase]
            exact h.hand hphase (by simp [Phase.inHand]) channel nofun
          · rw [if_pos hphase]
            refine h.outside ?_ ?_ h.armed_le (Nat.le_refl _)
            · exact Or.inl rfl
            · rfl
      | timeout =>
          obtain ⟨hphase, -, rfl⟩ := Pumped.timeout_eq_some_iff.1 hconn
          rw [if_pos hphase]
          exact h.hand hphase (by simp [Phase.inHand]) k.conn.channel fun _ => htime _ rfl
      | transmit n =>
          obtain ⟨⟨hreceiving, -⟩, rfl⟩ := Pumped.transmit_eq_some hconn
          rw [if_neg hreceiving]
          exact h.transmit hreceiving n
      | finish r =>
          obtain ⟨hreturn, ⟨n, item, hphase, rfl⟩ | ⟨hphase, rfl⟩⟩ := Pumped.finish_eq_some hconn
          · have hne : k.conn.phase ≠ .receiving := by simp [hphase]
            rw [if_neg hne]
            cases r with
            | ok u =>
                exact h.finish (by simp [hphase, Phase.inHand]) hreturn rfl
                  (handed_quiet rfl) rfl
            | error e => exact h.outside (Or.inl rfl) (handed_quiet rfl) (Nat.le_refl _) h.left_le
          · have hne : k.conn.phase ≠ .receiving := by simp [hphase]
            rw [if_neg hne]
            cases r with
            | ok u =>
                exact h.finish (by simp [hphase, Phase.inHand]) hreturn rfl
                  (handed_quiet rfl) rfl
            | error e => exact h.outside (Or.inl rfl) (handed_quiet rfl) (Nat.le_refl _) h.left_le
      | shutDown r =>
          obtain ⟨hphase, rfl⟩ := Pumped.shutDown_eq_some hconn
          have hne : k.conn.phase ≠ .receiving := by simp [hphase]
          rw [if_neg hne]
          exact h.outside (Or.inr rfl) (handed_quiet rfl) (Nat.le_refl _) h.left_le
      | _ => cases hb

lemma start (ch : Mpsc (ℕ × Item)) (ε : Type) (period : ℕ) (d : Delays) :
    (Kept.start ch ε).Ok period d :=
  ⟨Nat.le_refl _, Nat.le_refl _, fun _ => ⟨Nat.zero_le _, Nat.zero_le _⟩, fun h => absurd rfl h,
    fun _ => Nat.zero_le _, by simp [beatsSent, handed, Kept.start, Timed.start, Pumped.start]⟩

end Ok

/-! ### Runs -/

lemma ok_of_run {as : List (Timed.Action ε)}
    (h : run (step period d) (start ch ε) as = some k) : k.Ok period d :=
  run_invariant (fun _ _ _ hstep hk => hk.preserve hstep) h (.start ch ε period d)

/-- Where no time may pass, the pump or its socket can get on. -/
lemma enabled_of_due (hdue : ¬ k.OnTime period d (k.clock + 1)) :
    ∃ a, k.conn.advances a = true ∧ (k.step period d (.act a)).isSome := by
  have hexists : ∃ a, k.conn.advances a = true ∧ k.InTime (some period) a ∧
      (k.conn.step (some period) a).isSome := by
    by_cases hreceiving : k.conn.phase = .receiving
    · refine ⟨.timeout, rfl, ?_, by simp [Pumped.step, Pumped.timeout, hreceiving]⟩
      -- the timer has run out where the pump is overdue
      rintro _ ⟨⟩
      by_contra hearly
      refine hdue fun time htime => ?_
      rw [deadline_receiving hreceiving] at htime
      cases htime
      omega
    have hexited : k.conn.phase ≠ .exited := fun hphase =>
      hdue fun time htime => by simp [deadline, hphase] at htime
    obtain ⟨a, hadvances, hsome⟩ := Pumped.enabled_of_busy hreceiving hexited
    obtain ⟨conn, hconn⟩ := Option.isSome_iff_exists.1 hsome
    have hstep := (Pumped.eagerStep_eq_some hconn).1
    refine ⟨a, hadvances, ?_, by rw [hstep]; rfl⟩
    cases a with
    | timeout => exact absurd (Pumped.timeout_eq_some_iff.1 hstep).1 hreceiving
    | _ => trivial
  obtain ⟨a, hadvances, htime, hsome⟩ := hexists
  obtain ⟨conn, hconn⟩ := Option.isSome_iff_exists.1 hsome
  refine ⟨a, hadvances, ?_⟩
  simp [step, Timed.step, if_pos htime, hconn]

/-- **The server hears from the client.**  No more heart-beats were sent than intervals have passed.
While the pump is in its loop no gap passes without a byte, so that a server which is as tolerant as
the client does not give up where the delays are within an interval.  And time is not held up: the
pump can get on wherever it would be overdue. -/
theorem heard_of_run (period : ℕ) (d : Delays) (as : List (Timed.Action ε))
    (h : run (step period d) (start ch ε) as = some k) :
    beatsSent k.conn.log * period ≤ k.clock ∧
      (k.InLoop →
        k.clock ≤ k.sentAt + gap period d ∧
          k.clock ≤ (k.conn.wire.length + 1) * gap period d ∧
            ∀ tolerance, ClientTransport.tolerance (some period) true = some tolerance →
              d.late + 2 * d.latency ≤ period → k.clock ≤ k.sentAt + tolerance) ∧
        (¬ k.OnTime period d (k.clock + 1) →
          ∃ a, k.conn.advances a = true ∧ (k.step period d (.act a)).isSome) := by
  have hok := ok_of_run h
  refine ⟨hok.beats_le, fun hloop => ?_, enabled_of_due⟩
  have hclock := hok.clock_le hloop
  have hsent := hok.sent hloop
  refine ⟨hclock, ?_, ?_⟩
  · rw [Nat.add_mul]
    omega
  · intro tolerance htolerance hdelays
    obtain rfl : period * 2 = tolerance := Option.some.inj htolerance
    rw [gap] at hclock
    omega

/-- Two heart-beats with an item between them, each of them as late as may be. -/
def lateRun : List (Timed.Action String) :=
  [.tick 12, .act .timeout, .tick 3, .act (.transmit 1), .act (.finish (.ok ())),
    .act (.call true .heartbeat), .act .pollCall, .act .pollCall, .act .receive, .tick 1,
    .act (.transmit 1), .act (.finish (.ok ())), .tick 12, .act .timeout, .tick 3]

theorem heard_of_run_lateRun :
    ∃ k : Kept (Mpsc.bounded _ 1) String,
      run (step 10 ⟨2, 3⟩) (start _ _) lateRun = some k ∧ k.clock = 31 ∧
        beatsSent k.conn.log * 10 ≤ k.clock ∧ k.clock ≤ k.sentAt + gap 10 ⟨2, 3⟩ :=
  have hheard := heard_of_run 10 ⟨2, 3⟩ lateRun rfl
  ⟨_, rfl, rfl, hheard.1, (hheard.2.1 ⟨nofun, nofun⟩).1⟩

end Kept

end AsyncStomp
