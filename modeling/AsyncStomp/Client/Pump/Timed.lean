/-
# When the pump beats

The connection of `Client.Pump.Basic` with a clock.  `write_pump` awaits the channel under a
`timeout` of the negotiated interval, which counts from when the pump has come to the channel:
what it writes in between, a heart-beat or an item of the caller, starts it anew.
`timeout_isSome_iff` says what this means for the heart-beats of a run.
-/
import AsyncStomp.Client.Pump.Close

namespace AsyncStomp

open Tasks

/-- A connection with a write pump, and the clock. -/
structure Timed (ch : Mpsc (ℕ × Item)) (ε : Type) where
  conn : Pumped ch ε
  clock : ℕ
  /-- When the pump has come to the channel, and `timeout` began to count. -/
  armed : ℕ

namespace Timed

variable {ch : Mpsc (ℕ × Item)} {ε : Type}

/-- `establish`, once the server has accepted the connection. -/
def start (ch : Mpsc (ℕ × Item)) (ε : Type) : Timed ch ε := ⟨.start ch ε, 0, 0⟩

/-- What happens next: time passes, or a task moves. -/
inductive Action (ε : Type) where
  | tick (d : ℕ)
  | act (a : Pumped.Action ε)

/-- `timeout` gives up only once its time has run out. -/
def InTime (interval : Option ℕ) (t : Timed ch ε) : Pumped.Action ε → Prop
  | .timeout => ∀ period ∈ interval, t.armed + period ≤ t.clock
  | _ => True

instance (interval : Option ℕ) (t : Timed ch ε) (a : Pumped.Action ε) :
    Decidable (t.InTime interval a) :=
  match a with
  | .timeout => inferInstanceAs (Decidable (∀ period ∈ interval, t.armed + period ≤ t.clock))
  | .pollReady | .startSend _ | .pollFlush | .pollClose | .call _ _ | .pollCall | .dropCall
  | .dropTransport | .receive | .transmit _ | .finish _ | .shutDown _ =>
      inferInstanceAs (Decidable True)

/-- One step, if it is possible. -/
def step (interval : Option ℕ) (t : Timed ch ε) : Action ε → Option (Timed ch ε)
  | .tick d => some { t with clock := t.clock + d }
  | .act a =>
      if t.InTime interval a then
        (t.conn.step interval a).map fun conn =>
          -- a pump that was at the channel already awaits it under the same `timeout`
          ⟨conn, t.clock, if t.conn.phase = .receiving then t.armed else t.clock⟩
      else none

/-- The time since the pump last did something, where that was `waited` before. -/
def waitedFor (waited : ℕ) (as : List (Action ε)) : ℕ :=
  as.foldl (fun waited a =>
    match a with
    | .tick d => waited + d
    | .act a => if a.ofPump then 0 else waited) waited

/-- A pump with this interval can beat after having had nothing to do for that long. -/
def BeatsAfter (interval : Option ℕ) (waited : ℕ) : Prop :=
  ∃ (ch : Mpsc (ℕ × Item)) (ε : Type) (as : List (Action ε)) (t : Timed ch ε),
    run (step interval) (start ch ε) as = some t ∧ waitedFor 0 as = waited ∧
      (t.step interval (.act .timeout)).isSome

variable {interval : Option ℕ} {t t' : Timed ch ε}

/-- The actions of the tasks among these. -/
def untimed (as : List (Action ε)) : List (Pumped.Action ε) :=
  as.filterMap fun
    | .tick _ => none
    | .act a => some a

/-- A step of the clock leaves the connection as it is, and any other step is one of the
connection. -/
lemma step_eq_some {a : Action ε} (h : t.step interval a = some t') :
    (∃ d, a = .tick d ∧ t' = { t with clock := t.clock + d }) ∨
      ∃ b conn, a = .act b ∧ t.InTime interval b ∧ t.conn.step interval b = some conn ∧
        t' = ⟨conn, t.clock, if t.conn.phase = .receiving then t.armed else t.clock⟩ := by
  cases a with
  | tick d =>
      cases h
      exact Or.inl ⟨d, rfl, rfl⟩
  | act b =>
      obtain ⟨htime, hstep⟩ := Option.ite_none_right_eq_some.1 h
      obtain ⟨conn, hconn, rfl⟩ := Option.map_eq_some_iff.1 hstep
      exact Or.inr ⟨b, conn, rfl, htime, hconn, rfl⟩

/-- Without the clock a run is a run of the connection. -/
lemma run_conn {as : List (Action ε)} (h : run (step interval) t as = some t') :
    run (Pumped.step interval) t.conn (untimed as) = some t'.conn := by
  induction as generalizing t with
  | nil =>
      cases h
      rfl
  | cons a as ih =>
      rw [run_cons] at h
      obtain ⟨mid, hmid, hrest⟩ := Option.bind_eq_some_iff.1 h
      have hlater := ih hrest
      rcases step_eq_some hmid with ⟨d, rfl, rfl⟩ | ⟨b, conn, rfl, -, hconn, rfl⟩
      · exact hlater
      · show run (Pumped.step interval) t.conn (b :: untimed as) = _
        rw [run_cons, hconn]
        exact hlater

/-! ### Steps of the pump -/

section Steps

variable {s s' : Pumped ch ε} {a : Pumped.Action ε}

/-- A pump that comes to the channel comes from writing something. -/
lemma phase_of_pump (h : s.step interval a = some s') (ha : a.ofPump = true)
    (hphase : s'.phase = .receiving) : s.phase ≠ .receiving := by
  intro hs
  cases a with
  | receive =>
      obtain ⟨-, ⟨n, item, channel, -, rfl⟩ | ⟨-, rfl⟩⟩ := Pumped.receive_eq_some h
      · cases hphase
      · cases hphase
  | timeout =>
      obtain ⟨-, -, rfl⟩ := Pumped.timeout_eq_some_iff.1 h
      cases hphase
  | transmit k => exact (Pumped.transmit_eq_some h).1.1 hs
  | finish r =>
      obtain ⟨-, ⟨n, item, hfrom, -⟩ | ⟨hfrom, -⟩⟩ := Pumped.finish_eq_some h
      · cases hs.symm.trans hfrom
      · cases hs.symm.trans hfrom
  | shutDown r => cases hs.symm.trans (Pumped.shutDown_eq_some h).1
  | _ => cases ha

end Steps

/-! ### Runs -/

/-- The pump, where it is at the channel, has been there for this long. -/
def Waits (t : Timed ch ε) (waited : ℕ) : Prop :=
  t.conn.phase = .receiving → t.clock = t.armed + waited

lemma waits_step {a : Action ε} {waited : ℕ} (h : t.step interval a = some t')
    (ht : t.Waits waited) : t'.Waits (waitedFor waited [a]) := by
  intro hphase
  rcases step_eq_some h with ⟨d, rfl, rfl⟩ | ⟨b, conn, rfl, -, hconn, rfl⟩
  · show t.clock + d = t.armed + (waited + d)
    rw [ht hphase, Nat.add_assoc]
  · cases hb : b.ofPump with
    | true =>
        have hfrom := phase_of_pump hconn hb hphase
        simp [waitedFor, hb, hfrom]
    | false =>
        have hfrom : t.conn.phase = .receiving :=
          (Pumped.leavesPump_of_caller hconn hb).phase.symm.trans hphase
        simpa [waitedFor, hb, hfrom] using ht hfrom

lemma waits_run {as : List (Action ε)} {waited : ℕ} (h : run (step interval) t as = some t')
    (ht : t.Waits waited) : t'.Waits (waitedFor waited as) := by
  induction as generalizing t waited with
  | nil =>
      cases h
      exact ht
  | cons a as ih =>
      rw [run_cons] at h
      obtain ⟨mid, hmid, hrest⟩ := Option.bind_eq_some_iff.1 h
      exact ih hrest (waits_step hmid ht)

/-- **When the pump may beat.**  After any run exactly where it is at the channel and the interval
has passed since it last did anything. -/
theorem timeout_isSome_iff {as : List (Action ε)}
    (h : run (step interval) (start ch ε) as = some t) :
    (t.step interval (.act .timeout)).isSome ↔
      t.conn.phase = .receiving ∧ ∃ period, interval = some period ∧ period ≤ waitedFor 0 as := by
  have hwaits : t.Waits (waitedFor 0 as) := waits_run h fun _ => rfl
  constructor
  · intro hsome
    obtain ⟨t', hstep⟩ := Option.isSome_iff_exists.1 hsome
    obtain ⟨htime, hmap⟩ := Option.ite_none_right_eq_some.1 hstep
    obtain ⟨conn, htimeout, -⟩ := Option.map_eq_some_iff.1 hmap
    obtain ⟨hphase, ⟨period, rfl⟩, -⟩ := Pumped.timeout_eq_some_iff.1 htimeout
    have hpassed : t.armed + period ≤ t.clock := htime period rfl
    have hclock := hwaits hphase
    exact ⟨hphase, period, rfl, by omega⟩
  · rintro ⟨hphase, period, rfl, hle⟩
    have hclock := hwaits hphase
    have htime : t.InTime (some period) .timeout := by
      intro p hp
      cases hp
      omega
    have hconn : t.conn.step (some period) .timeout = some (t.conn.hand .beating .beat) :=
      Pumped.timeout_eq_some_iff.2 ⟨hphase, ⟨period, rfl⟩, rfl⟩
    rw [step, if_pos htime, hconn]
    rfl

/-- The time after which a pump beats is its interval. -/
theorem beatsAfter_iff {waited : ℕ} :
    BeatsAfter interval waited ↔ ∃ period, interval = some period ∧ period ≤ waited := by
  constructor
  · rintro ⟨ch, ε, as, t, h, rfl, hsome⟩
    exact ((timeout_isSome_iff h).1 hsome).2
  · rintro ⟨period, rfl, hle⟩
    have hrun : run (step (some period)) (start (Mpsc.bounded _ 1) Unit) [.tick waited] =
        some ⟨.start _ _, 0 + waited, 0⟩ := rfl
    refine ⟨_, _, _, _, hrun, ?_, (timeout_isSome_iff hrun).2 ⟨rfl, period, rfl, ?_⟩⟩
    · exact Nat.zero_add waited
    · exact hle.trans (Nat.zero_add waited).ge

end Timed

end AsyncStomp
