/-
# The pump gets on

Nobody waits for ever.  An item that was accepted is answered after a number of steps of the pump
that is known beforehand, whatever the caller does meanwhile (`answered_of_run`); and a pump whose
channel was closed writes what it has been given and ends (`ends_of_run`).  This needs a socket that
takes bytes or fails, and a `timeout` that looks at the channel before it looks at the clock.
-/
import AsyncStomp.Client.Pump.Caller
import AsyncStomp.Client.Wire
import AsyncStomp.Tasks.Progress
import Mathlib.Algebra.GroupWithZero.Nat

namespace AsyncStomp

open Tasks

namespace Pumped

variable {ch : Mpsc (ℕ × Item)} {ε : Type} {s s' : Pumped ch ε} {interval : Option ℕ}

/-- A step of a connection whose `timeout` polls the channel first, as that of `tokio` does: it
gives up only where there is nothing to take. -/
def eagerStep (interval : Option ℕ) (s : Pumped ch ε) : Action ε → Option (Pumped ch ε)
  | .timeout =>
      match ch.next s.channel with
      | .pending => s.step interval .timeout
      | .ready _ => none
  | a => s.step interval a

/-- The actions that get the pump on: those of its own, and those of a socket that takes a byte. -/
def advances (s : Pumped ch ε) : Action ε → Bool
  | .receive | .timeout | .finish _ | .shutDown _ => true
  | .transmit k => decide (0 < k) && !s.buffer.isEmpty
  | _ => false

lemma eagerStep_eq_some {a : Action ε} (h : s.eagerStep interval a = some s') :
    s.step interval a = some s' ∧ (a = .timeout → ch.next s.channel = .pending) := by
  cases a with
  | timeout =>
      cases hnext : ch.next s.channel with
      | pending =>
          simp only [eagerStep, hnext] at h
          exact ⟨h, fun _ => rfl⟩
      | ready next => simp [eagerStep, hnext] at h
  | _ => exact ⟨h, nofun⟩

/-- Whatever is eager is a run. -/
lemma run_of_eager {as : List (Action ε)} (h : run (eagerStep interval) s as = some s') :
    run (step interval) s as = some s' :=
  run_mono (fun _ _ _ hstep => (eagerStep_eq_some hstep).1) h

lemma Good.of_step (h : s.Good) {a : Action ε} (hstep : s.step interval a = some s') :
    s'.Good ∧ accepted s.log <+: accepted s'.log := by
  have hrun : run (step interval) s [a] = some s' := by
    rw [run_cons, hstep]
    rfl
  obtain ⟨hgood, haccepted, -⟩ := later_of_run h hrun
  exact ⟨hgood, haccepted⟩

lemma advances_of_caller {a : Action ε} (ha : a.ofPump = false) : s.advances a = false := by
  cases a <;> first | rfl | cases ha

/-- A step of the socket takes as many bytes off the buffer as count. -/
lemma length_transmit (s : Pumped ch ε) (k : ℕ) :
    (s.buffer.drop k).length + (s.advances (.transmit k)).toNat ≤ s.buffer.length := by
  rw [List.length_drop]
  cases hbuffer : s.buffer with
  | nil => simp [advances, hbuffer]
  | cons b bs =>
      by_cases hk : 0 < k
      · simp [advances, hbuffer, hk]
        omega
      · simp [advances, hbuffer, hk]

/-- A writer can get on: the socket takes a byte, or everything is written and it returns. -/
lemma enabled_of_busy (hreceiving : s.phase ≠ .receiving) (hexited : s.phase ≠ .exited) :
    ∃ a, s.advances a = true ∧ (s.eagerStep interval a).isSome := by
  by_cases hbuffer : s.buffer = []
  · cases hphase : s.phase with
    | receiving => exact absurd hphase hreceiving
    | exited => exact absurd hphase hexited
    | closing => exact ⟨.shutDown (.ok ()), rfl, by simp [eagerStep, step, shutDown, hphase]⟩
    | _ =>
        refine ⟨.finish (.ok ()), rfl, ?_⟩
        simp [eagerStep, step, finish, MayReturn, hphase, hbuffer]
  · refine ⟨.transmit 1, by simpa [advances] using hbuffer, ?_⟩
    cases hphase : s.phase with
    | receiving => exact absurd hphase hreceiving
    | exited => exact absurd hphase hexited
    | _ => simp [eagerStep, step, transmit, hphase]

/-! ### Answers -/

section Answers

variable {n : ℕ} {item : Item}

lemma exists_report_iff {o : Oneshot (Except ε Unit)} :
    (∃ r, report o = some r) ↔ o ≠ .waiting := by
  cases o <;> simp [report]

/-- A report that is there stays there. -/
lemma report_of_step (hs : s.Good) {a : Action ε} (h : s.step interval a = some s')
    (hn : s.oneshots n ≠ .waiting) : s'.oneshots n ≠ .waiting := by
  obtain ⟨r, hr⟩ := exists_report_iff.2 hn
  have hrun : run (step interval) s [a] = some s' := by
    rw [run_cons, h]
    rfl
  let I : Pumped ch ε → Prop := fun mid => mid.Inv ∧ report (mid.oneshots n) = some r
  have href : Refines I (step interval) (Move interval) := fun mid a mid' hI =>
    refines_move interval mid a mid' hI.1.toCallOk
  have hmove : ∀ mid mid', Move interval mid mid' → I mid → I mid' := fun mid mid' hm hI =>
    ⟨hI.1.preserve hm, hI.1.report_kept hm hI.2⟩
  exact exists_report_iff.1 ⟨r, (href.run_invariant hmove hrun ⟨hs.inv, hr⟩).2⟩

/-- An item without an answer is alone in the channel, or with the writer. -/
lemma Inv.place_of_waiting (h : s.Inv) (hmem : (n, item) ∈ accepted s.log)
    (hwait : s.oneshots n = .waiting) :
    (ch.queue s.channel = [(n, item)] ∧ (∀ m i, s.phase ≠ .writing m i) ∧ s.phase ≠ .exited) ∨
      s.phase = .writing n item := by
  have hhanded : (n, item) ∈ handedItems s.log → s.phase = .writing n item := by
    intro hitem
    rcases h.result_of_handed n item hitem with hphase | ⟨r, hr⟩
    · exact hphase
    · rw [(h.sent_iff n r).2 hr] at hwait
      cases hwait
  cases h.slot with
  | free _ _ hi => exact Or.inr (hhanded (hi ▸ hmem))
  | queued m i hq hp hx hi _ =>
      rw [hi] at hmem
      rcases List.mem_append.1 hmem with hitem | hlast
      · exact Or.inr (hhanded hitem)
      · obtain ⟨rfl, rfl⟩ : n = m ∧ item = i := by simpa using hlast
        exact Or.inl ⟨hq, hp, hx⟩
  | writing _ _ _ _ hi _ _ => exact Or.inr (hhanded (hi ▸ hmem))
  | lost m i _ _ hi hc =>
      rw [hi] at hmem
      rcases List.mem_append.1 hmem with hitem | hlast
      · exact Or.inr (hhanded hitem)
      · obtain ⟨rfl, rfl⟩ : n = m ∧ item = i := by simpa using hlast
        rw [hc] at hwait
        cases hwait

/-- How many steps of the pump and of the socket it takes at most until an item is answered. -/
def stepsLeft (item : Item) (s : Pumped ch ε) : ℕ :=
  match s.phase with
  | .receiving => item.bytes.length + 2
  | .beating => s.buffer.length + item.bytes.length + 3
  | .writing _ _ | .closing => s.buffer.length + 1
  | .exited => 0

lemma length_encode (item : Item) (dst : Bytes) :
    (encode item dst).length = dst.length + item.bytes.length := by
  rw [encode_eq, List.length_append]

/-- A step of the pump answers the item or brings its answer nearer. -/
lemma stepsLeft_of_pump (hs : s.Good) (hmem : (n, item) ∈ accepted s.log)
    (hwait : s.oneshots n = .waiting) {a : Action ε} (h : s.eagerStep interval a = some s')
    (ha : a.ofPump = true) :
    s'.oneshots n ≠ .waiting ∨ s'.stepsLeft item + (s.advances a).toNat ≤ s.stepsLeft item := by
  obtain ⟨hstep, hnext⟩ := eagerStep_eq_some h
  have hplace := hs.inv.place_of_waiting hmem hwait
  -- a pump that does not write has the item in its channel
  have hqueued : (∀ m i, s.phase ≠ .writing m i) → ch.queue s.channel = [(n, item)] := fun hne =>
    hplace.elim And.left fun hwriting => absurd hwriting (hne n item)
  cases a with
  | receive =>
      obtain ⟨hphase, hcases⟩ := receive_eq_some hstep
      have hqueue := hqueued (by simp [hphase])
      have hbuffer := hs.writer.buffer_nil hphase
      rcases hcases with ⟨m, i, channel, hsome, rfl⟩ | ⟨hnone, -⟩
      · have hitem := (ch.next_some hsome).1
        rw [hqueue] at hitem
        obtain ⟨hni, -⟩ := List.cons.inj hitem
        cases hni
        right
        have hlen : (encode item s.buffer).length = item.bytes.length := by
          rw [length_encode, hbuffer, List.length_nil, Nat.zero_add]
        have hafter : ({ s with channel := channel }.hand (.writing n item)
            (.own n item)).stepsLeft item = (encode item s.buffer).length + 1 := rfl
        rw [hafter, hlen]
        simp [stepsLeft, hphase, advances]
      · rw [(ch.next_none hnone).1] at hqueue
        cases hqueue
  | timeout =>
      -- a channel with an item in it is not given up on
      have hphase := (timeout_eq_some_iff.1 hstep).1
      have hqueue := hqueued (by simp [hphase])
      rw [(ch.next_pending (hnext rfl)).1] at hqueue
      cases hqueue
  | transmit k =>
      obtain ⟨⟨hreceiving, hexited⟩, rfl⟩ := transmit_eq_some hstep
      have hlen := s.length_transmit k
      right
      cases hphase : s.phase with
      | receiving => exact absurd hphase hreceiving
      | exited => exact absurd hphase hexited
      | _ =>
          simp only [stepsLeft, hphase]
          omega
  | finish r =>
      obtain ⟨hreturn, ⟨m, i, hphase, rfl⟩ | ⟨hphase, rfl⟩⟩ := finish_eq_some hstep
      · have hwriting : s.phase = .writing n item :=
          hplace.resolve_left fun hq => hq.2.1 m i hphase
        cases hphase.symm.trans hwriting
        left
        simp [note]
      · right
        cases r with
        | ok u =>
            have hbuffer : s.buffer = [] := hreturn
            simp [stepsLeft, hphase, note, afterSend, hbuffer, advances]
        | error e =>
            simp only [stepsLeft, hphase, note, afterSend, advances, Bool.toNat_true]
            omega
  | shutDown r =>
      obtain ⟨hphase, rfl⟩ := shutDown_eq_some hstep
      have hqueue := hqueued (by simp [hphase])
      left
      simp [note, cancelQueued, hqueue]
  | _ => cases ha

/-- Nothing keeps the pump from getting on with an item. -/
lemma enabled_of_waiting (hs : s.Good) (hmem : (n, item) ∈ accepted s.log)
    (hwait : s.oneshots n = .waiting) :
    ∃ a, s.advances a = true ∧ (s.eagerStep interval a).isSome := by
  have hplace := hs.inv.place_of_waiting hmem hwait
  have hexited : s.phase ≠ .exited := by
    rcases hplace with ⟨-, -, hx⟩ | hwriting
    · exact hx
    · simp [hwriting]
  by_cases hreceiving : s.phase = .receiving
  · have hqueue : ch.queue s.channel = [(n, item)] := by
      rcases hplace with ⟨hq, -, -⟩ | hwriting
      · exact hq
      · cases hreceiving.symm.trans hwriting
    refine ⟨.receive, rfl, ?_⟩
    have hstep : s.eagerStep interval .receive = s.receive := rfl
    rw [hstep, receive]
    rcases hnext : ch.next s.channel with _ | _ | ⟨⟨m, i⟩, channel⟩
    · rw [(ch.next_pending hnext).1] at hqueue
      cases hqueue
    · simp [hreceiving]
    · simp [hreceiving]
  exact enabled_of_busy hreceiving hexited

/-- An answer is bound to come. -/
lemma variant_answered (interval : Option ℕ) (n : ℕ) (item : Item) :
    Variant (eagerStep interval) (fun s : Pumped ch ε => s.advances)
      (fun s => s.Good ∧ (n, item) ∈ accepted s.log) (fun s => s.oneshots n ≠ .waiting)
      (stepsLeft item) := by
  refine ⟨?_, ?_, ?_, ?_⟩
  · rintro s a s' h ⟨hgood, hmem⟩
    obtain ⟨hgood', haccepted⟩ := hgood.of_step (eagerStep_eq_some h).1
    exact ⟨hgood', haccepted.subset hmem⟩
  · exact fun s a s' h hI => report_of_step hI.1 (eagerStep_eq_some h).1
  · rintro s a s' h ⟨hgood, hmem⟩ hwait
    cases ha : a.ofPump with
    | true => exact stepsLeft_of_pump hgood hmem (not_not.1 hwait) h ha
    | false =>
        have hleaves := leavesPump_of_caller (eagerStep_eq_some h).1 ha
        right
        simp only [stepsLeft, hleaves.phase, hleaves.buffer, advances_of_caller ha]
        rfl
  · rintro s ⟨hgood, hmem⟩ hwait
    exact enabled_of_waiting hgood hmem (not_not.1 hwait)

/-- A future whose report is there is done with the next poll. -/
lemma pollCall_of_report (hs : s.Good) (hcall : s.call = .flushing n item)
    (hn : s.oneshots n ≠ .waiting) :
    ∃ s', s.step interval .pollCall = some s' ∧ s'.call = .none := by
  obtain ⟨r, hr⟩ := exists_report_iff.2 hn
  have hpending := (hs.inv.flushing n item hcall).1
  have hflush : s.pollFlush = (.ready r, { s with pending := none }.note [.settled n r]) := by
    simp only [pollFlush, hpending, hr]
  cases r with
  | ok u => exact ⟨_, by simp only [step, pollCall, hcall, hflush]; rfl, rfl⟩
  | error e => exact ⟨_, by simp only [step, pollCall, hcall, hflush]; rfl, rfl⟩

/-- **Every item is answered.**  As long as an item that was accepted has no answer the pump can get
on; after as many steps of the pump as `stepsLeft` says, whatever the caller does in between, the
answer is there; and then the future that awaits it is done with its next poll. -/
theorem answered_of_run (interval : Option ℕ) (as : List (Action ε))
    (h : run (eagerStep interval) (start ch ε) as = some s) (hmem : (n, item) ∈ accepted s.log) :
    (s.oneshots n = .waiting → ∃ a, s.advances a = true ∧ (s.eagerStep interval a).isSome) ∧
      (∀ bs s', run (eagerStep interval) s bs = some s' →
        s.stepsLeft item < countIn (eagerStep interval) (fun s => s.advances) s bs →
          s'.oneshots n ≠ .waiting) ∧
      (s.call = .flushing n item → s.oneshots n ≠ .waiting →
        ∃ s', s.step interval .pollCall = some s' ∧ s'.call = .none) := by
  have hgood := good_of_run (run_of_eager h)
  have hvariant : Variant (eagerStep interval) (fun s : Pumped ch ε => s.advances) _ _ _ :=
    variant_answered interval n item
  refine ⟨fun hwait => ?_, fun bs s' hbs hcount => ?_, pollCall_of_report hgood⟩
  · exact enabled_of_waiting hgood hmem hwait
  · exact hvariant.reached hbs ⟨hgood, hmem⟩ hcount

/-- An item that is accepted while the pump beats, and a caller that gives up on it. -/
def busyRun : List (Action String) :=
  [.timeout, .call true .heartbeat, .pollCall, .pollCall, .dropCall]

theorem answered_of_run_busyRun :
    ∃ s : Pumped (Mpsc.bounded _ 1) String,
      run (eagerStep (some 10)) (start _ _) busyRun = some s ∧ s.stepsLeft .heartbeat = 5 ∧
        ∀ bs s', run (eagerStep (some 10)) s bs = some s' →
          s.stepsLeft .heartbeat < countIn (eagerStep (some 10)) (fun s => s.advances) s bs →
            s'.oneshots 0 ≠ .waiting :=
  ⟨_, rfl, rfl, (answered_of_run (some 10) busyRun rfl (List.mem_singleton_self (0, _))).2.1⟩

end Answers

/-! ### The end -/

/-- How many steps of the pump and of the socket it takes at most until a pump whose channel is
closed has ended. -/
def stepsToEnd (s : Pumped ch ε) : ℕ :=
  let queued := ((ch.queue s.channel).map fun p => p.2.bytes.length + 2).sum
  match s.phase with
  | .receiving => queued + 2
  | .beating | .writing _ _ => s.buffer.length + queued + 3
  | .closing => s.buffer.length + 1
  | .exited => 0

/-- A channel that is closed stays closed, and takes nothing any more. -/
lemma closed_of_step (hclosed : ch.isOpen s.channel = false) {a : Action ε}
    (h : s.step interval a = some s') :
    ch.isOpen s'.channel = false ∧ accepted s'.log = accepted s.log := by
  cases ha : a.ofPump with
  | false =>
      obtain ⟨hlater, -, haccepted⟩ := (leavesPump_of_caller h ha).closed hclosed
      exact ⟨hlater, haccepted⟩
  | true =>
      cases a with
      | receive =>
          obtain ⟨-, ⟨n, item, channel, hnext, rfl⟩ | ⟨-, rfl⟩⟩ := receive_eq_some h
          · exact ⟨(ch.next_some hnext).2.trans hclosed, accepted_quiet rfl⟩
          · exact ⟨hclosed, rfl⟩
      | timeout =>
          obtain ⟨-, -, rfl⟩ := timeout_eq_some_iff.1 h
          exact ⟨hclosed, accepted_quiet rfl⟩
      | transmit k =>
          obtain ⟨-, rfl⟩ := transmit_eq_some h
          exact ⟨hclosed, rfl⟩
      | finish r =>
          obtain ⟨-, ⟨n, item, -, rfl⟩ | ⟨-, rfl⟩⟩ := finish_eq_some h
          · exact ⟨hclosed, accepted_quiet rfl⟩
          · exact ⟨hclosed, accepted_quiet rfl⟩
      | shutDown r =>
          obtain ⟨-, rfl⟩ := shutDown_eq_some h
          exact ⟨ch.isOpen_dropReceiver _, accepted_quiet rfl⟩
      | _ => cases ha

lemma closed_of_run (hclosed : ch.isOpen s.channel = false) {as : List (Action ε)}
    (h : run (step interval) s as = some s') :
    ch.isOpen s'.channel = false ∧ accepted s'.log = accepted s.log := by
  refine run_invariant (I := fun mid => ch.isOpen mid.channel = false ∧
    accepted mid.log = accepted s.log) ?_ h ⟨hclosed, rfl⟩
  rintro mid a mid' hstep ⟨hmid, heq⟩
  obtain ⟨hlater, haccepted⟩ := closed_of_step hmid hstep
  exact ⟨hlater, haccepted.trans heq⟩

/-- A step of the pump brings its end nearer. -/
lemma stepsToEnd_of_pump (hs : s.Good) (hclosed : ch.isOpen s.channel = false) {a : Action ε}
    (h : s.eagerStep interval a = some s') (ha : a.ofPump = true) :
    s'.phase = .exited ∨ s'.stepsToEnd + (s.advances a).toNat ≤ s.stepsToEnd := by
  obtain ⟨hstep, hnext⟩ := eagerStep_eq_some h
  cases a with
  | receive =>
      obtain ⟨hphase, ⟨n, item, channel, hsome, rfl⟩ | ⟨hnone, rfl⟩⟩ := receive_eq_some hstep
      · right
        have hqueue := (ch.next_some hsome).1
        have hbuffer := hs.writer.buffer_nil hphase
        simp only [stepsToEnd, hphase, hqueue, hand, note, length_encode, hbuffer, Entry.toItem,
          List.map_cons, List.sum_cons, List.length_nil, advances, Bool.toNat_true]
        omega
      · right
        have hqueue := (ch.next_none hnone).1
        have hbuffer := hs.writer.buffer_nil hphase
        simp [stepsToEnd, hphase, hqueue, hbuffer, advances]
  | timeout =>
      -- there is nothing to wait for on a closed channel
      have hopen := (ch.next_pending (hnext rfl)).2
      rw [hclosed] at hopen
      cases hopen
  | transmit k =>
      obtain ⟨⟨hreceiving, hexited⟩, rfl⟩ := transmit_eq_some hstep
      have hlen := s.length_transmit k
      right
      cases hphase : s.phase with
      | receiving => exact absurd hphase hreceiving
      | exited => exact absurd hphase hexited
      | _ =>
          simp only [stepsToEnd, hphase]
          omega
  | finish r =>
      have hafter : ∀ t : Pumped ch ε, t.phase = afterSend r → t.buffer = s.buffer →
          t.channel = s.channel → s.MayReturn r →
            t.stepsToEnd + 1 ≤ s.buffer.length +
              ((ch.queue s.channel).map fun p => p.2.bytes.length + 2).sum + 3 := by
        intro t hphase hbuffer hchannel hreturn
        cases r with
        | ok u =>
            simp only [stepsToEnd, hphase, afterSend, hchannel]
            omega
        | error e =>
            simp only [stepsToEnd, hphase, afterSend, hbuffer]
            omega
      right
      obtain ⟨hreturn, ⟨n, item, hphase, rfl⟩ | ⟨hphase, rfl⟩⟩ := finish_eq_some hstep
      · refine Nat.le_trans (hafter _ rfl rfl rfl hreturn) ?_
        simp only [stepsToEnd, hphase]
        exact Nat.le_refl _
      · refine Nat.le_trans (hafter _ rfl rfl rfl hreturn) ?_
        simp only [stepsToEnd, hphase]
        exact Nat.le_refl _
  | shutDown r =>
      obtain ⟨-, rfl⟩ := shutDown_eq_some hstep
      exact Or.inl rfl
  | _ => cases ha

/-- Nothing keeps a pump whose channel is closed from ending. -/
lemma enabled_of_closed (hclosed : ch.isOpen s.channel = false) (hexited : s.phase ≠ .exited) :
    ∃ a, s.advances a = true ∧ (s.eagerStep interval a).isSome := by
  by_cases hreceiving : s.phase = .receiving
  · refine ⟨.receive, rfl, ?_⟩
    have hstep : s.eagerStep interval .receive = s.receive := rfl
    rw [hstep, receive]
    rcases hnext : ch.next s.channel with _ | _ | ⟨⟨m, i⟩, channel⟩
    · rw [(ch.next_pending hnext).2] at hclosed
      cases hclosed
    · simp [hreceiving]
    · simp [hreceiving]
  exact enabled_of_busy hreceiving hexited

/-- A pump whose channel is closed is bound to end. -/
lemma variant_exited (ch : Mpsc (ℕ × Item)) (ε : Type) (interval : Option ℕ) :
    Variant (eagerStep interval) (fun s : Pumped ch ε => s.advances)
      (fun s => s.Good ∧ ch.isOpen s.channel = false) (fun s => s.phase = .exited)
      stepsToEnd := by
  refine ⟨?_, ?_, ?_, fun s hI hQ => enabled_of_closed hI.2 hQ⟩
  · rintro s a s' h ⟨hgood, hclosed⟩
    have hstep := (eagerStep_eq_some h).1
    exact ⟨(hgood.of_step hstep).1, (closed_of_step hclosed hstep).1⟩
  · intro s a s' h _ hexited
    have hstep := (eagerStep_eq_some h).1
    cases ha : a.ofPump with
    | false => exact (leavesPump_of_caller hstep ha).phase.trans hexited
    | true =>
        -- a pump that has ended does nothing
        cases a with
        | receive => cases hexited.symm.trans (receive_eq_some hstep).1
        | timeout => cases hexited.symm.trans (timeout_eq_some_iff.1 hstep).1
        | transmit k => exact absurd hexited (transmit_eq_some hstep).1.2
        | finish r =>
            obtain ⟨-, ⟨n, item, hphase, -⟩ | ⟨hphase, -⟩⟩ := finish_eq_some hstep
            · cases hexited.symm.trans hphase
            · cases hexited.symm.trans hphase
        | shutDown r => cases hexited.symm.trans (shutDown_eq_some hstep).1
        | _ => cases ha
  · rintro s a s' h ⟨hgood, hclosed⟩ -
    cases ha : a.ofPump with
    | true => exact stepsToEnd_of_pump hgood hclosed h ha
    | false =>
        have hleaves := leavesPump_of_caller (eagerStep_eq_some h).1 ha
        right
        simp only [stepsToEnd, hleaves.phase, hleaves.buffer, (hleaves.closed hclosed).2.1,
          advances_of_caller ha]
        rfl

/-- Some `writer.send` has failed. -/
def WriteFailed (log : List (Event ε)) : Prop := ∃ e x, .finished e (.error x) ∈ log

/-- A pump that has left its loop has written everything, or a write has failed. -/
def Emptied (s : Pumped ch ε) : Prop := s.phase = .closing ∨ s.phase = .exited →
  WriteFailed s.log ∨
    (s.buffer = [] ∧ handedItems s.log = accepted s.log ∧ ch.isOpen s.channel = false)

/-- What is recorded stays so. -/
lemma Move.log_prefix (hm : Move interval s s') : s.log <+: s'.log := by
  cases hm with
  | permit | await | flush | closeChannel | dropTransport | leave | transmit =>
      exact List.prefix_rfl
  | _ => exact List.prefix_append _ _

lemma WriteFailed.mono {log log' : List (Event ε)} (h : WriteFailed log) (hlog : log <+: log') :
    WriteFailed log' := by
  obtain ⟨e, x, hmem⟩ := h
  exact ⟨e, x, hlog.subset hmem⟩

/-- A move that leaves the pump alone, with the channel at most closed. -/
lemma Emptied.congr (h : s.Emptied) (hlog : s.log <+: s'.log) (hphase : s'.phase = s.phase)
    (hbuffer : s.buffer = [] → s'.buffer = []) (hhanded : handedItems s'.log = handedItems s.log)
    (haccepted : accepted s'.log = accepted s.log)
    (hopen : ch.isOpen s.channel = false → ch.isOpen s'.channel = false) : s'.Emptied := by
  intro hleft
  rw [hphase] at hleft
  rcases h hleft with hfailed | ⟨hnil, hitems, hclosed⟩
  · exact Or.inl (hfailed.mono hlog)
  · exact Or.inr ⟨hbuffer hnil, by rw [hhanded, haccepted, hitems], hopen hclosed⟩

lemma Emptied.preserve (hs : s.Good) (h : s.Emptied) (hm : Move interval s s') : s'.Emptied := by
  have hlog := hm.log_prefix
  -- a writer that fails is on record, one that does not goes back to the channel
  have hfinish : ∀ (t : Pumped ch ε) e r, t.phase = afterSend r →
      t.log = s.log ++ [.finished e r] → t.Emptied := by
    intro t e r hphase hrecord hleft
    cases r with
    | ok u => simp [hphase, afterSend] at hleft
    | error x => exact Or.inl ⟨e, x, by simp [hrecord]⟩
  cases hm with
  | @accept item channel hready hcall hsend =>
      intro hleft
      rcases h hleft with hfailed | ⟨-, -, hclosed⟩
      · exact Or.inl (hfailed.mono hlog)
      · rw [(ch.startSend_ok hsend).1] at hclosed
        cases hclosed
  | receive => exact fun hleft => by simp [hand, note] at hleft
  | timeout => exact fun hleft => by simp [hand, note] at hleft
  | leave hphase hnext =>
      obtain ⟨hqueue, hclosed⟩ := ch.next_none hnext
      exact fun _ => Or.inr ⟨hs.writer.buffer_nil hphase, hs.inv.handedItems_of_idle hphase hqueue,
        hclosed⟩
  | transmit k hphase =>
      refine h.congr hlog rfl (fun hnil => ?_) rfl rfl id
      show s.buffer.drop k = []
      rw [hnil, List.drop_nil]
  | finish r => exact hfinish _ _ r rfl rfl
  | finishBeat r => exact hfinish _ _ r rfl rfl
  | shutDown r hphase =>
      intro _
      rcases h (Or.inl hphase) with hfailed | ⟨hnil, hitems, -⟩
      · exact Or.inl (hfailed.mono hlog)
      · refine Or.inr ⟨hnil, ?_, ch.isOpen_dropReceiver _⟩
        rw [note_log, handedItems_quiet rfl, accepted_quiet rfl, hitems]
  | closeChannel => exact h.congr hlog rfl id rfl rfl fun _ => ch.isOpen_closeChannel _
  | permit | await | flush | dropTransport => exact h.congr hlog rfl id rfl rfl id
  | _ => exact h.congr hlog rfl id (handedItems_quiet rfl) (accepted_quiet rfl) id

lemma emptied_of_run {as : List (Action ε)} (h : run (step interval) (start ch ε) as = some s) :
    s.Emptied := by
  let I : Pumped ch ε → Prop := fun mid => mid.Good ∧ mid.Emptied
  have href : Refines I (step interval) (Move interval) := fun mid a mid' hI =>
    refines_move interval mid a mid' hI.1.inv.toCallOk
  have hmove : ∀ mid mid', Move interval mid mid' → I mid → I mid' := fun mid mid' hm hI =>
    ⟨hI.1.preserve hm, hI.2.preserve hI.1 hm⟩
  have hstart : (start ch ε).Emptied := fun hleft => by simp [start] at hleft
  exact (href.run_invariant hmove h ⟨good_start ch ε, hstart⟩).2

/-- The caller closes the channel: it drops the transport, or calls `poll_close` with no write
outstanding and none that has failed. -/
def Closes (s : Pumped ch ε) (a : Action ε) : Prop :=
  a = .dropTransport ∨ (a = .pollClose ∧ s.Settled)

lemma closed_of_closes {a : Action ε} (ha : s.Closes a) (h : s.step interval a = some s') :
    ch.isOpen s'.channel = false ∧ accepted s'.log = accepted s.log := by
  rcases ha with rfl | ⟨rfl, hsettled⟩
  · obtain ⟨-, ⟨⟩⟩ := Option.ite_none_right_eq_some.1 h
    exact ⟨ch.isOpen_closeChannel _, rfl⟩
  · obtain ⟨-, ⟨⟩⟩ := Option.ite_none_right_eq_some.1 h
    rcases hsettled with hnone | ⟨n, hpending, hok⟩
    · simp only [pollClose, pollFlush, hnone, answer]
      exact ⟨ch.isOpen_closeChannel _, accepted_quiet rfl⟩
    · simp only [pollClose, pollFlush, hpending, hok, report, Except.mapError, answer]
      exact ⟨ch.isOpen_closeChannel _, (accepted_quiet rfl).trans (accepted_quiet rfl)⟩

/-- What becomes of a connection whose channel has been closed, where `items` had been accepted. -/
structure Ends (interval : Option ℕ) (items : List (ℕ × Item)) (s : Pumped ch ε) : Prop where
  /-- Nothing is accepted any more. -/
  accepted_eq : accepted s.log = items
  /-- The pump can get on until it has ended. -/
  enabled : s.phase ≠ .exited → ∃ a, s.advances a = true ∧ (s.eagerStep interval a).isSome
  /-- It ends only with everything written, unless a write has failed. -/
  emptied : s.phase = .exited → WriteFailed s.log ∨
    (handedItems s.log = items ∧ s.wire = bytesOf (handed s.log))
  /-- And then a server has all the frames, where every item can be encoded. -/
  delivered : s.phase = .exited → ¬ WriteFailed s.log → AllEncodable items →
    serverReads s.wire = (framesOf items, .waiting [])

/-- **A connection that is closed ends**, with nothing lost.  Once the transport is dropped, or
`poll_close` has returned `Ok`, nothing is accepted any more, and the pump ends after as many steps
as `stepsToEnd` says, whatever the caller does in between; unless a write has failed everything is
on the wire then, and the server has all the frames where every item can be encoded. -/
theorem ends_of_run (interval : Option ℕ) (as bs : List (Action ε)) (a : Action ε)
    {s₁ : Pumped ch ε} (h : run (eagerStep interval) (start ch ε) as = some s) (ha : s.Closes a)
    (hstep : s.step interval a = some s₁) (hbs : run (eagerStep interval) s₁ bs = some s') :
    s'.Ends interval (accepted s.log) ∧
      (s₁.stepsToEnd < countIn (eagerStep interval) (fun s => s.advances) s₁ bs →
        s'.phase = .exited) := by
  obtain ⟨hclosed, haccepted₁⟩ := closed_of_closes ha hstep
  have hrun : run (step interval) (start ch ε) (as ++ a :: bs) = some s' := by
    rw [run_append, run_of_eager h, Option.bind_some, run_cons, hstep]
    exact run_of_eager hbs
  have hgood := good_of_run (run_of_eager h)
  have hgood₁ := (hgood.of_step hstep).1
  have hgood' := good_of_run hrun
  obtain ⟨hclosed', haccepted'⟩ := closed_of_run hclosed (run_of_eager hbs)
  have haccepted := haccepted'.trans haccepted₁
  have hemptied : s'.phase = .exited → WriteFailed s'.log ∨
      (handedItems s'.log = accepted s.log ∧ s'.wire = bytesOf (handed s'.log)) := by
    intro hexited
    rcases emptied_of_run hrun (Or.inr hexited) with hfailed | ⟨hnil, hitems, -⟩
    · exact Or.inl hfailed
    · refine Or.inr ⟨hitems.trans haccepted, ?_⟩
      rw [← hgood'.writer.wire_buffer, hnil, List.append_nil]
  refine ⟨⟨haccepted, enabled_of_closed hclosed', hemptied, ?_⟩, ?_⟩
  · intro hexited hfailed henc
    obtain ⟨hitems, hwire⟩ := (hemptied hexited).resolve_left hfailed
    have hown : ownItems (handed s'.log) = accepted s.log := hitems
    have hreads := serverReads_bytesOf (hown.symm ▸ henc) []
    rw [serverReads_nil, List.append_nil, List.append_nil, hown] at hreads
    rw [hwire, hreads]
  · exact (variant_exited ch ε interval).reached hbs ⟨hgood₁, hclosed⟩

/-- A transport that is dropped while an item is in the channel. -/
def droppedRun : List (Action String) :=
  [.call true (.message ⟨.begin "tx", []⟩), .pollCall, .pollCall, .dropCall]

/-- The item is written all the same, and the pump ends. -/
def lastWrites : List (Action String) :=
  [.receive, .transmit 100, .finish (.ok ()), .receive, .shutDown (.ok ())]

theorem ends_of_run_droppedRun :
    ∃ s s₁ s' : Pumped (Mpsc.bounded _ 1) String,
      run (eagerStep (some 10)) (start _ _) droppedRun = some s ∧
        s.step (some 10) .dropTransport = some s₁ ∧
          run (eagerStep (some 10)) s₁ lastWrites = some s' ∧ s'.phase = .exited ∧
            s'.Ends (some 10) (accepted s.log) :=
  ⟨_, _, _, rfl, rfl, rfl, rfl,
    (ends_of_run (some 10) droppedRun lastWrites .dropTransport rfl (Or.inl rfl) rfl rfl).1⟩

end Pumped

end AsyncStomp
