/-
# What holds on every pumped connection

The invariant relates the pending oneshot, the channel, the phase of the pump and the log.
Its heart is `Slot`: at most one item is accepted and not handed over yet, or handed over
and not finished yet, and it is in exactly one place.
-/
import AsyncStomp.Client.Pump.Moves
import AsyncStomp.Codec.Output
import Mathlib.Data.List.Nodup

namespace AsyncStomp

open Tasks

/-! ### Logs -/

section Log

variable {ε : Type} (xs ys : List (Event ε))

@[simp] lemma accepted_append : accepted (xs ++ ys) = accepted xs ++ accepted ys :=
  List.filterMap_append

@[simp] lemma handed_append : handed (xs ++ ys) = handed xs ++ handed ys :=
  List.filterMap_append

@[simp] lemma written_append : written (xs ++ ys) = written xs ++ written ys :=
  List.filterMap_append

@[simp] lemma results_append : results (xs ++ ys) = results xs ++ results ys :=
  List.filterMap_append

@[simp] lemma settled_append : settled (xs ++ ys) = settled xs ++ settled ys :=
  List.filterMap_append

@[simp] lemma handedItems_append : handedItems (xs ++ ys) = handedItems xs ++ handedItems ys := by
  rw [handedItems, handed_append, List.filterMap_append]
  rfl

lemma accepted_quiet {xs ys : List (Event ε)} (h : accepted ys = []) :
    accepted (xs ++ ys) = accepted xs := by
  rw [accepted_append, h, List.append_nil]

lemma handed_quiet {xs ys : List (Event ε)} (h : handed ys = []) :
    handed (xs ++ ys) = handed xs := by
  rw [handed_append, h, List.append_nil]

lemma written_quiet {xs ys : List (Event ε)} (h : written ys = []) :
    written (xs ++ ys) = written xs := by
  rw [written_append, h, List.append_nil]

lemma results_quiet {xs ys : List (Event ε)} (h : results ys = []) :
    results (xs ++ ys) = results xs := by
  rw [results_append, h, List.append_nil]

lemma settled_quiet {xs ys : List (Event ε)} (h : settled ys = []) :
    settled (xs ++ ys) = settled xs := by
  rw [settled_append, h, List.append_nil]

lemma handedItems_quiet {xs ys : List (Event ε)} (h : handedItems ys = []) :
    handedItems (xs ++ ys) = handedItems xs := by
  rw [handedItems_append, h, List.append_nil]

/-- An item whose result is `Ok` is one that was written. -/
lemma mem_results_ok {log : List (Event ε)} {n : ℕ} :
    (n, .ok ()) ∈ results log ↔ ∃ item, .own n item ∈ written log := by
  constructor
  · intro h
    obtain ⟨ev, hev, hn⟩ := List.mem_filterMap.1 h
    cases ev with
    | finished e r =>
        cases e with
        | beat => cases hn
        | own m item =>
            cases hn
            exact ⟨item, List.mem_filterMap.2 ⟨_, hev, rfl⟩⟩
    | _ => cases hn
  · rintro ⟨item, h⟩
    obtain ⟨ev, hev, hn⟩ := List.mem_filterMap.1 h
    cases ev with
    | finished e r =>
        cases r with
        | ok u =>
            cases hn
            exact List.mem_filterMap.2 ⟨_, hev, rfl⟩
        | error x => cases hn
    | _ => cases hn

lemma mem_handedItems {log : List (Event ε)} {n : ℕ} {item : Item} :
    (n, item) ∈ handedItems log ↔ .own n item ∈ handed log := by
  constructor
  · intro h
    obtain ⟨e, he, hn⟩ := List.mem_filterMap.1 h
    cases e with
    | beat => cases hn
    | own m i =>
        cases hn
        exact he
  · exact fun h => List.mem_filterMap.2 ⟨_, h, rfl⟩

end Log

namespace Pumped

variable {ch : Mpsc (ℕ × Item)} {ε : Type}

@[simp] lemma note_log (s : Pumped ch ε) (es : List (Event ε)) :
    (s.note es).log = s.log ++ es := rfl

@[simp] lemma hand_log (s : Pumped ch ε) (phase : Phase) (e : Entry) :
    (s.hand phase e).log = s.log ++ [.handed e] := rfl

/-- Where the last item is. -/
inductive Slot (s : Pumped ch ε) : Prop where
  /-- Everything that was accepted has been handed over and is finished. -/
  | free (hqueue : ch.queue s.channel = []) (hphase : ∀ m i, s.phase ≠ .writing m i)
      (hitems : handedItems s.log = accepted s.log)
  /-- The last item is in the channel. -/
  | queued (n : ℕ) (item : Item) (hqueue : ch.queue s.channel = [(n, item)])
      (hphase : ∀ m i, s.phase ≠ .writing m i) (hexit : s.phase ≠ .exited)
      (hitems : accepted s.log = handedItems s.log ++ [(n, item)])
      (hwait : s.oneshots n = .waiting)
  /-- The last item is with the writer. -/
  | writing (n : ℕ) (item : Item) (hqueue : ch.queue s.channel = [])
      (hphase : s.phase = .writing n item) (hitems : handedItems s.log = accepted s.log)
      (hmem : (n, item) ∈ accepted s.log) (hwait : s.oneshots n = .waiting)
  /-- The last item was in the channel when the pump ended. -/
  | lost (n : ℕ) (item : Item) (hqueue : ch.queue s.channel = []) (hexit : s.phase = .exited)
      (hitems : accepted s.log = handedItems s.log ++ [(n, item)])
      (hcancel : s.oneshots n = .cancelled)

/-- The bookkeeping of items, their oneshots and their reports. -/
structure Inv (s : Pumped ch ε) : Prop extends CallOk s where
  numbered : (accepted s.log).map Prod.fst = List.range (accepted s.log).length
  slot : s.Slot
  sent_iff : ∀ n r, s.oneshots n = .sent r ↔ (n, r) ∈ results s.log
  cancelled : ∀ n, s.oneshots n = .cancelled →
    s.phase = .exited ∧ n ∉ (handedItems s.log).map Prod.fst ∧ n < (accepted s.log).length
  result_of_handed : ∀ n item, (n, item) ∈ handedItems s.log →
    s.phase = .writing n item ∨ ∃ r, (n, r) ∈ results s.log
  handed_of_result : ∀ n r, (n, r) ∈ results s.log → ∃ item, (n, item) ∈ handedItems s.log
  report_of_settled : ∀ n r, (n, r) ∈ settled s.log → report (s.oneshots n) = some r
  settled_numbered : (settled s.log).map Prod.fst = List.range (settled s.log).length
  pending_eq : ∀ n, s.pending = some n →
    n = (settled s.log).length ∧ (accepted s.log).length = n + 1
  settled_all : s.pending = none → (settled s.log).length = (accepted s.log).length
  pending_none : s.ready = true → s.pending = none
  closed : s.phase = .exited → ch.isOpen s.channel = false

variable {s s' : Pumped ch ε} {interval : Option ℕ}

/-! ### What a move does to the items -/

namespace Move

/-- An item is accepted, or the report of one is taken, or neither. -/
lemma items_cases (hm : Move interval s s') :
    (s'.pending = s.pending ∧ accepted s'.log = accepted s.log ∧ settled s'.log = settled s.log) ∨
      (∃ item, s.ready = true ∧ s'.pending = some s.fresh ∧
        accepted s'.log = accepted s.log ++ [(s.fresh, item)] ∧ settled s'.log = settled s.log) ∨
      ∃ n r, s.pending = some n ∧ report (s.oneshots n) = some r ∧ s'.pending = none ∧
        accepted s'.log = accepted s.log ∧ settled s'.log = settled s.log ++ [(n, r)] := by
  cases hm with
  | @settle n hpending hok _ =>
      have hreport : report (s.oneshots n) = some (.ok ()) := by rw [hok]; rfl
      exact Or.inr (Or.inr ⟨n, _, hpending, hreport, rfl, accepted_quiet rfl, settled_append _ _⟩)
  | @fail n e op hpending herror _ =>
      exact Or.inr (Or.inr ⟨n, _, hpending, herror, rfl, accepted_quiet rfl, settled_append _ _⟩)
  | @accept item channel hready _ _ =>
      exact Or.inr (Or.inl ⟨item, hready, rfl, accepted_append _ _, settled_quiet rfl⟩)
  | permit | await | flush | closeChannel | dropTransport | leave | transmit =>
      exact Or.inl ⟨rfl, rfl, rfl⟩
  | _ => exact Or.inl ⟨rfl, accepted_quiet rfl, settled_quiet rfl⟩

/-- The writer returns for an item, or the pump ends, or no oneshot is answered. -/
lemma oneshots_cases (hm : Move interval s s') :
    (s'.oneshots = s.oneshots ∧ results s'.log = results s.log) ∨
      (∃ n item r, s.phase = .writing n item ∧
        s'.oneshots = Function.update s.oneshots n (.sent r) ∧
          results s'.log = results s.log ++ [(n, r)]) ∨
      (s.phase = .closing ∧ s'.phase = .exited ∧
        s'.oneshots = cancelQueued (ch.queue s.channel) s.oneshots ∧
          results s'.log = results s.log) := by
  cases hm with
  | @finish n item r hphase _ =>
      exact Or.inr (Or.inl ⟨n, item, r, hphase, rfl, results_append _ _⟩)
  | shutDown r hphase => exact Or.inr (Or.inr ⟨hphase, rfl, rfl, results_quiet rfl⟩)
  | permit | await | flush | closeChannel | dropTransport | leave | transmit =>
      exact Or.inl ⟨rfl, rfl⟩
  | _ => exact Or.inl ⟨rfl, results_quiet rfl⟩

/-- An item is handed over, or none. -/
lemma handedItems_cases (hm : Move interval s s') :
    handedItems s'.log = handedItems s.log ∨
      ∃ n item, s.phase = .receiving ∧ s'.phase = .writing n item ∧
        handedItems s'.log = handedItems s.log ++ [(n, item)] := by
  cases hm with
  | @receive n item channel hphase _ =>
      exact Or.inr ⟨n, item, hphase, rfl, handedItems_append _ _⟩
  | permit | await | flush | closeChannel | dropTransport | leave | transmit => exact Or.inl rfl
  | _ => exact Or.inl (handedItems_quiet rfl)

lemma accepted_prefix (hm : Move interval s s') : accepted s.log <+: accepted s'.log := by
  rcases hm.items_cases with ⟨-, heq, -⟩ | ⟨item, -, -, heq, -⟩ | ⟨n, r, -, -, -, heq, -⟩
  · exact heq ▸ List.prefix_rfl
  · rw [heq]
    exact List.prefix_append _ _
  · exact heq ▸ List.prefix_rfl

lemma results_subset (hm : Move interval s s') : results s.log ⊆ results s'.log := by
  rcases hm.oneshots_cases with ⟨-, heq⟩ | ⟨n, item, r, -, -, heq⟩ | ⟨-, -, -, heq⟩
  · rw [heq]
    exact List.Subset.refl _
  · rw [heq]
    exact List.subset_append_left _ _
  · rw [heq]
    exact List.Subset.refl _

lemma handedItems_subset (hm : Move interval s s') : handedItems s.log ⊆ handedItems s'.log := by
  rcases hm.handedItems_cases with heq | ⟨n, item, -, -, heq⟩
  · rw [heq]
    exact List.Subset.refl _
  · rw [heq]
    exact List.subset_append_left _ _

/-- The pump stays where it is, unless it waits at the channel, beats, closes or has written. -/
lemma phase_cases (hm : Move interval s s') :
    s'.phase = s.phase ∨ s.phase = .receiving ∨ s.phase = .beating ∨
      (s.phase = .closing ∧ s'.phase = .exited) ∨
      ∃ n item r, s.phase = .writing n item ∧ (n, r) ∈ results s'.log := by
  cases hm with
  | receive hphase _ => exact Or.inr (Or.inl hphase)
  | leave hphase _ => exact Or.inr (Or.inl hphase)
  | timeout hphase _ => exact Or.inr (Or.inl hphase)
  | @finish n item r hphase _ =>
      refine Or.inr (Or.inr (Or.inr (Or.inr ⟨n, item, r, hphase, ?_⟩)))
      rw [note_log, results_append]
      exact List.mem_append_right _ (List.mem_singleton_self _)
  | finishBeat r hphase _ => exact Or.inr (Or.inr (Or.inl hphase))
  | shutDown r hphase => exact Or.inr (Or.inr (Or.inr (Or.inl ⟨hphase, rfl⟩)))
  | _ => exact Or.inl rfl

/-- A pump that has ended stays so. -/
lemma exited (hm : Move interval s s') (h : s.phase = .exited) : s'.phase = .exited := by
  rcases hm.phase_cases with heq | hphase | hphase | ⟨-, hexit⟩ | ⟨n, item, r, hphase, -⟩
  · exact heq.trans h
  · cases h.symm.trans hphase
  · cases h.symm.trans hphase
  · exact hexit
  · cases h.symm.trans hphase

/-- The writer stays with an item until it returns. -/
lemma writing (hm : Move interval s s') {n : ℕ} {item : Item} (h : s.phase = .writing n item) :
    s'.phase = .writing n item ∨ ∃ r, (n, r) ∈ results s'.log := by
  rcases hm.phase_cases with heq | hphase | hphase | ⟨hphase, -⟩ | ⟨m, i, r, hphase, hr⟩
  · exact Or.inl (heq.trans h)
  · cases h.symm.trans hphase
  · cases h.symm.trans hphase
  · cases h.symm.trans hphase
  · cases h.symm.trans hphase
    exact Or.inr ⟨r, hr⟩

end Move

/-- A slot does not depend on anything else. -/
lemma Slot.congr (h : s.Slot) (hqueue : ch.queue s'.channel = ch.queue s.channel)
    (hphase : s'.phase = s.phase) (haccepted : accepted s'.log = accepted s.log)
    (hhanded : handedItems s'.log = handedItems s.log) (honeshots : s'.oneshots = s.oneshots) :
    s'.Slot := by
  cases h with
  | free hq hp hi =>
      exact .free (hqueue.trans hq) (hphase ▸ hp) (by rw [haccepted, hhanded, hi])
  | queued n item hq hp hx hi hw =>
      exact .queued n item (hqueue.trans hq) (hphase ▸ hp) (hphase ▸ hx)
        (by rw [haccepted, hhanded, hi]) (by rw [honeshots, hw])
  | writing n item hq hp hi hm hw =>
      exact .writing n item (hqueue.trans hq) (hphase ▸ hp) (by rw [haccepted, hhanded, hi])
        (haccepted ▸ hm) (by rw [honeshots, hw])
  | lost n item hq hp hi hc =>
      exact .lost n item (hqueue.trans hq) (hphase ▸ hp) (by rw [haccepted, hhanded, hi])
        (by rw [honeshots, hc])

namespace Inv

/-- The items have different numbers. -/
lemma nodup (h : s.Inv) : ((accepted s.log).map Prod.fst).Nodup := by
  rw [h.numbered]
  exact List.nodup_range

lemma lt_of_mem (h : s.Inv) {n : ℕ} {item : Item} (hmem : (n, item) ∈ accepted s.log) :
    n < (accepted s.log).length := by
  have hn : n ∈ (accepted s.log).map Prod.fst := List.mem_map_of_mem hmem
  rwa [h.numbered, List.mem_range] at hn

lemma handedItems_subset (h : s.Inv) {n : ℕ} {item : Item} (hmem : (n, item) ∈ handedItems s.log) :
    (n, item) ∈ accepted s.log := by
  cases h.slot with
  | free _ _ hi => exact hi ▸ hmem
  | queued _ _ _ _ _ hi _ => exact hi ▸ List.mem_append_left _ hmem
  | writing _ _ _ _ hi _ _ => exact hi ▸ hmem
  | lost _ _ _ _ hi _ => exact hi ▸ List.mem_append_left _ hmem

/-- Nothing is known yet of the number that the next item gets. -/
lemma fresh_waiting (h : s.Inv) : s.oneshots s.fresh = .waiting := by
  cases ho : s.oneshots s.fresh with
  | waiting => rfl
  | sent r =>
      obtain ⟨item, hitem⟩ := h.handed_of_result _ r ((h.sent_iff _ r).1 ho)
      exact absurd (h.lt_of_mem (h.handedItems_subset hitem)) (lt_irrefl _)
  | cancelled => exact absurd (h.cancelled _ ho).2.2 (lt_irrefl _)

/-- With nothing pending every item has its report. -/
lemma report_of_mem (h : s.Inv) (hpending : s.pending = none) {n : ℕ} {item : Item}
    (hmem : (n, item) ∈ accepted s.log) : s.oneshots n ≠ .waiting := by
  have hn : n ∈ (settled s.log).map Prod.fst := by
    rw [h.settled_numbered, h.settled_all hpending, List.mem_range]
    exact h.lt_of_mem hmem
  obtain ⟨⟨m, r⟩, hr, rfl⟩ := List.mem_map.1 hn
  have hreport := h.report_of_settled m r hr
  intro hwait
  rw [hwait] at hreport
  cases hreport

/-- With nothing pending the slot is not in use, and the channel is empty. -/
lemma queue_eq_nil (h : s.Inv) (hpending : s.pending = none) : ch.queue s.channel = [] := by
  cases h.slot with
  | free hq _ _ => exact hq
  | queued n item _ _ _ hi hw =>
      have hmem : (n, item) ∈ accepted s.log := by
        rw [hi]
        simp
      exact absurd hw (h.report_of_mem hpending hmem)
  | writing _ _ hq _ _ _ _ => exact hq
  | lost _ _ hq _ _ _ => exact hq

/-! ### What a move preserves -/

lemma preserves_callOk (h : s.Inv) (hm : Move interval s s') : s'.CallOk := by
  constructor
  · intro f i
    cases hm with
    | permit => exact fun _ => rfl
    | accept _ hcall _ => exact fun hs => absurd (hcall.symm.trans hs) (by simp)
    | refuse _ hcall _ => exact fun hs => absurd (hcall.symm.trans hs) (by simp)
    | await call _ hstart => exact hstart f i
    | flush => exact fun hs => absurd hs (by simp)
    | _ => exact h.starting f i
  · intro n i
    have hsubset := hm.accepted_prefix.subset
    cases hm with
    | settle _ _ hcall => exact fun hs => absurd hs (hcall n i)
    | fail _ _ _ hcall => exact fun hs => absurd hs (hcall n i)
    | accept _ hcall _ => exact fun hs => absurd (hcall.symm.trans hs) (by simp)
    | await call hflush _ => exact fun hs => absurd hs (hflush n i)
    | flush hpending hmem =>
        intro hs
        cases hs
        exact ⟨hpending, hmem⟩
    | _ => exact fun hs => (h.flushing n i hs).imp_right (@hsubset (n, i))

lemma preserves_numbered (h : s.Inv) (hm : Move interval s s') :
    (accepted s'.log).map Prod.fst = List.range (accepted s'.log).length := by
  rcases hm.items_cases with ⟨-, heq, -⟩ | ⟨item, -, -, heq, -⟩ | ⟨n, r, -, -, -, heq, -⟩
  · rw [heq, h.numbered]
  · rw [heq, List.map_append, h.numbered, List.length_append, List.length_singleton,
      List.range_succ]
    rfl
  · rw [heq, h.numbered]

/-- An item is accepted only while the pump is there and the slot is free. -/
lemma free_of_startSend (h : s.Inv) (hpending : s.pending = none) {a : ℕ × Item} {c : ch.State}
    (hsend : ch.startSend s.channel a = .ok c) :
    s.phase ≠ .exited ∧ (∀ m i, s.phase ≠ .writing m i) ∧
      handedItems s.log = accepted s.log := by
  have hexit : s.phase ≠ .exited := fun hexit =>
    absurd (h.closed hexit) (by simp [(ch.startSend_ok hsend).1])
  cases h.slot with
  | free _ hp hi => exact ⟨hexit, hp, hi⟩
  | queued n item hq _ _ _ _ => exact absurd (h.queue_eq_nil hpending) (by simp [hq])
  | writing n item _ _ _ hm hw => exact absurd hw (h.report_of_mem hpending hm)
  | lost n item _ hx _ _ => exact absurd hx hexit

lemma preserves_slot (h : s.Inv) (hm : Move interval s s') : s'.Slot := by
  cases hm with
  | settle | fail | answer | sent | refuse =>
      exact h.slot.congr rfl rfl (accepted_quiet rfl) (handedItems_quiet rfl) rfl
  | permit | await | flush | dropTransport => exact h.slot.congr rfl rfl rfl rfl rfl
  | closeChannel => exact h.slot.congr (ch.queue_closeChannel _) rfl rfl rfl rfl
  | transmit => exact h.slot.congr rfl rfl rfl rfl rfl
  | @accept item channel hready _ hsend =>
      have hpending := h.pending_none hready
      obtain ⟨hexit, hphase, hitems⟩ := h.free_of_startSend hpending hsend
      have hqueue := (ch.startSend_ok hsend).2.1
      rw [h.queue_eq_nil hpending, List.nil_append] at hqueue
      refine .queued s.fresh item hqueue hphase hexit ?_ h.fresh_waiting
      rw [note_log, accepted_append, handedItems_quiet rfl, hitems]
      rfl
  | @receive n item channel hphase hnext =>
      have hqueue := (ch.next_some hnext).1
      cases h.slot with
      | free hq _ _ => simp [hq] at hqueue
      | queued m i hq _ _ hi hw =>
          -- the channel held this item and no other
          rw [hq] at hqueue
          obtain ⟨hn, hrest⟩ := List.cons.inj hqueue
          cases hn
          refine .writing n item hrest.symm rfl ?_ ?_ hw
          · rw [hand_log, accepted_quiet rfl, handedItems_append, hi]
            rfl
          · rw [hand_log, accepted_quiet rfl, hi]
            exact List.mem_append_right _ (List.mem_singleton_self _)
      | writing _ _ hq _ _ _ _ => simp [hq] at hqueue
      | lost _ _ hq _ _ _ => simp [hq] at hqueue
  | leave hphase hnext =>
      have hqueue := (ch.next_none hnext).1
      cases h.slot with
      | free hq _ hi => exact .free hq (by simp) hi
      | queued _ _ hq _ _ _ _ => simp [hq] at hqueue
      | writing _ _ _ hp _ _ _ => simp [hphase] at hp
      | lost _ _ _ hx _ _ => simp [hphase] at hx
  | timeout hphase hinterval =>
      have hitems : handedItems (s.hand .beating .beat).log = handedItems s.log :=
        handedItems_quiet rfl
      have haccepted : accepted (s.hand .beating .beat).log = accepted s.log := accepted_quiet rfl
      have hbeating : (s.hand .beating .beat).phase = .beating := rfl
      cases h.slot with
      | free hq _ hi => exact .free hq (by simp [hbeating]) (by rw [hitems, haccepted, hi])
      | queued n item hq _ _ hi hw =>
          exact .queued n item hq (by simp [hbeating]) (by simp [hbeating])
            (by rw [hitems, haccepted, hi]) hw
      | writing _ _ _ hp _ _ _ => simp [hphase] at hp
      | lost _ _ _ hx _ _ => simp [hphase] at hx
  | @finish n item r hphase hreturn =>
      have hafter : ∀ m i, afterSend r ≠ .writing m i := by cases r <;> simp [afterSend]
      cases h.slot with
      | free _ hp _ => exact absurd hphase (hp n item)
      | queued _ _ _ hp _ _ _ => exact absurd hphase (hp n item)
      | writing _ _ hq _ hi _ _ =>
          refine .free hq hafter ?_
          rw [note_log, handedItems_quiet rfl, accepted_quiet rfl, hi]
      | lost _ _ _ hx _ _ => simp [hphase] at hx
  | finishBeat r hphase hreturn =>
      have hafter : ∀ m i, afterSend r ≠ .writing m i := by cases r <;> simp [afterSend]
      have hexit : afterSend r ≠ .exited := by cases r <;> simp [afterSend]
      cases h.slot with
      | free hq _ hi =>
          refine .free hq hafter ?_
          rw [note_log, handedItems_quiet rfl, accepted_quiet rfl, hi]
      | queued n item hq _ _ hi hw =>
          refine .queued n item hq hafter hexit ?_ hw
          rw [note_log, handedItems_quiet rfl, accepted_quiet rfl, hi]
      | writing _ _ _ hp _ _ _ => simp [hphase] at hp
      | lost _ _ _ hx _ _ => simp [hphase] at hx
  | shutDown r hphase =>
      have hqueue := ch.queue_dropReceiver s.channel
      cases h.slot with
      | free _ _ hi =>
          refine .free hqueue (by simp [note]) ?_
          rw [note_log, handedItems_quiet rfl, accepted_quiet rfl, hi]
      | queued n item hq _ _ hi _ =>
          -- the receiver is dropped with the item in it
          refine .lost n item hqueue rfl ?_ ?_
          · rw [note_log, handedItems_quiet rfl, accepted_quiet rfl, hi]
          · simp [note, cancelQueued, hq]
      | writing _ _ _ hp _ _ _ => simp [hphase] at hp
      | lost _ _ _ hx _ _ => simp [hphase] at hx

/-- The item that is being written has been handed over, and is not answered yet. -/
lemma of_writing (h : s.Inv) {n : ℕ} {item : Item} (hphase : s.phase = .writing n item) :
    s.oneshots n = .waiting ∧ (n, item) ∈ handedItems s.log := by
  cases h.slot with
  | free _ hp _ => exact absurd hphase (hp n item)
  | queued _ _ _ hp _ _ _ => exact absurd hphase (hp n item)
  | writing m i _ hp hi hm hw =>
      rw [hphase] at hp
      cases hp
      exact ⟨hw, hi ▸ hm⟩
  | lost _ _ _ hx _ _ => simp [hphase] at hx

/-- An item in the channel has not been handed over, and is not answered yet. -/
lemma of_queued (h : s.Inv) {n : ℕ} (hn : n ∈ (ch.queue s.channel).map Prod.fst) :
    s.oneshots n = .waiting ∧ n ∉ (handedItems s.log).map Prod.fst ∧
      n < (accepted s.log).length := by
  cases h.slot with
  | free hq _ _ => simp [hq] at hn
  | queued m i hq _ _ hi hw =>
      have hnm : n = m := by simpa [hq] using hn
      subst hnm
      have hmem : (n, i) ∈ accepted s.log := by
        rw [hi]
        simp
      refine ⟨hw, ?_, h.lt_of_mem hmem⟩
      have hnodup := h.nodup
      rw [hi, List.map_append, List.nodup_append] at hnodup
      exact fun hmem => hnodup.2.2 n hmem n (by simp) rfl
  | writing _ _ hq _ _ _ _ => simp [hq] at hn
  | lost _ _ hq _ _ _ => simp [hq] at hn

lemma preserves_sent_iff (h : s.Inv) (hm : Move interval s s') (n : ℕ) (r : Except ε Unit) :
    s'.oneshots n = .sent r ↔ (n, r) ∈ results s'.log := by
  rcases hm.oneshots_cases with
    ⟨ho, hr⟩ | ⟨m, item, r', hphase, ho, hr⟩ | ⟨-, -, ho, hr⟩
  · rw [ho, hr, h.sent_iff]
  · rw [ho, hr, List.mem_append, List.mem_singleton, Prod.mk.injEq]
    by_cases hn : n = m
    · subst hn
      have hnew : (n, r) ∉ results s.log := by
        rw [← h.sent_iff, (h.of_writing hphase).1]
        simp
      simp [hnew, eq_comm]
    · simp [hn, h.sent_iff]
  · rw [ho, hr, ← h.sent_iff]
    by_cases hn : n ∈ (ch.queue s.channel).map Prod.fst
    · simp [cancelQueued, hn, (h.of_queued hn).1]
    · simp [cancelQueued, hn]

lemma preserves_cancelled (h : s.Inv) (hm : Move interval s s') (n : ℕ)
    (hn : s'.oneshots n = .cancelled) :
    s'.phase = .exited ∧ n ∉ (handedItems s'.log).map Prod.fst ∧
      n < (accepted s'.log).length := by
  have hlength := hm.accepted_prefix.length_le
  -- an item that was cancelled before, by a pump that has ended
  have hold : s.oneshots n = .cancelled → s'.phase = .exited ∧
      n ∉ (handedItems s'.log).map Prod.fst ∧ n < (accepted s'.log).length := by
    intro hs
    obtain ⟨hexit, hmem, hlt⟩ := h.cancelled n hs
    refine ⟨hm.exited hexit, ?_, hlt.trans_le hlength⟩
    rcases hm.handedItems_cases with heq | ⟨m, item, hphase, -, -⟩
    · rwa [heq]
    · rw [hexit] at hphase
      cases hphase
  rcases hm.oneshots_cases with
    ⟨ho, -⟩ | ⟨m, item, r, -, ho, -⟩ | ⟨hphase, hexit, ho, -⟩
  · exact hold (ho ▸ hn)
  · by_cases hnm : n = m
    · simp [ho, hnm] at hn
    · exact hold (by simpa [ho, hnm] using hn)
  · by_cases hq : n ∈ (ch.queue s.channel).map Prod.fst
    · obtain ⟨-, hmem, hlt⟩ := h.of_queued hq
      refine ⟨hexit, ?_, hlt.trans_le hlength⟩
      rcases hm.handedItems_cases with heq | ⟨m, item, hreceiving, -, -⟩
      · rwa [heq]
      · rw [hphase] at hreceiving
        cases hreceiving
    · exact hold (by simpa [ho, cancelQueued, hq] using hn)

lemma preserves_result_of_handed (h : s.Inv) (hm : Move interval s s') (n : ℕ) (item : Item)
    (hmem : (n, item) ∈ handedItems s'.log) :
    s'.phase = .writing n item ∨ ∃ r, (n, r) ∈ results s'.log := by
  have hold : (n, item) ∈ handedItems s.log →
      s'.phase = .writing n item ∨ ∃ r, (n, r) ∈ results s'.log := by
    intro hs
    rcases h.result_of_handed n item hs with hphase | ⟨r, hr⟩
    · exact hm.writing hphase
    · exact Or.inr ⟨r, hm.results_subset hr⟩
  rcases hm.handedItems_cases with heq | ⟨m, i, -, hphase, heq⟩
  · exact hold (heq ▸ hmem)
  · rw [heq, List.mem_append, List.mem_singleton] at hmem
    rcases hmem with hmem | ⟨⟨⟩⟩
    · exact hold hmem
    · exact Or.inl hphase

lemma preserves_handed_of_result (h : s.Inv) (hm : Move interval s s') (n : ℕ)
    (r : Except ε Unit) (hmem : (n, r) ∈ results s'.log) :
    ∃ item, (n, item) ∈ handedItems s'.log := by
  have hold : (n, r) ∈ results s.log → ∃ item, (n, item) ∈ handedItems s'.log := by
    intro hs
    obtain ⟨item, hitem⟩ := h.handed_of_result n r hs
    exact ⟨item, hm.handedItems_subset hitem⟩
  rcases hm.oneshots_cases with
    ⟨-, hr⟩ | ⟨m, item, r', hphase, -, hr⟩ | ⟨-, -, -, hr⟩
  · exact hold (hr ▸ hmem)
  · rw [hr, List.mem_append, List.mem_singleton] at hmem
    rcases hmem with hmem | ⟨⟨⟩⟩
    · exact hold hmem
    · exact ⟨item, hm.handedItems_subset (h.of_writing hphase).2⟩
  · exact hold (hr ▸ hmem)

/-- A report does not change: the items that are answered next have none. -/
lemma report_kept (h : s.Inv) (hm : Move interval s s') {n : ℕ} {r : Report ε}
    (hr : report (s.oneshots n) = some r) : report (s'.oneshots n) = some r := by
  rcases hm.oneshots_cases with
    ⟨ho, -⟩ | ⟨m, item, r', hphase, ho, -⟩ | ⟨-, -, ho, -⟩
  · rwa [ho]
  · have hne : n ≠ m := by
      rintro rfl
      rw [(h.of_writing hphase).1] at hr
      cases hr
    rwa [ho, Function.update_of_ne hne]
  · have hne : n ∉ (ch.queue s.channel).map Prod.fst := by
      intro hq
      rw [(h.of_queued hq).1] at hr
      cases hr
    rwa [ho, cancelQueued, if_neg hne]

lemma preserves_report_of_settled (h : s.Inv) (hm : Move interval s s') (n : ℕ) (r : Report ε)
    (hmem : (n, r) ∈ settled s'.log) : report (s'.oneshots n) = some r := by
  refine h.report_kept hm ?_
  rcases hm.items_cases with ⟨-, -, heq⟩ | ⟨item, -, -, -, heq⟩ | ⟨m, r', -, hreport, -, -, heq⟩
  · exact h.report_of_settled n r (heq ▸ hmem)
  · exact h.report_of_settled n r (heq ▸ hmem)
  · rw [heq, List.mem_append, List.mem_singleton] at hmem
    rcases hmem with hmem | ⟨⟨⟩⟩
    · exact h.report_of_settled n r hmem
    · exact hreport

/-- A report is taken under the next number. -/
lemma numbered_append (h : s.Inv) {n : ℕ} (hpending : s.pending = some n) (r : Report ε) :
    (settled s.log ++ [(n, r)]).map Prod.fst = List.range (settled s.log ++ [(n, r)]).length := by
  rw [List.map_append, h.settled_numbered, List.length_append, List.length_singleton,
    List.range_succ, ← (h.pending_eq n hpending).1]
  rfl

lemma preserves_settled_numbered (h : s.Inv) (hm : Move interval s s') :
    (settled s'.log).map Prod.fst = List.range (settled s'.log).length := by
  rcases hm.items_cases with ⟨-, -, heq⟩ | ⟨item, -, -, -, heq⟩ | ⟨n, r, hpending, -, -, -, heq⟩
  · rw [heq, h.settled_numbered]
  · rw [heq, h.settled_numbered]
  · rw [heq]
    exact h.numbered_append hpending r

lemma preserves_pending_eq (h : s.Inv) (hm : Move interval s s') (n : ℕ)
    (hn : s'.pending = some n) :
    n = (settled s'.log).length ∧ (accepted s'.log).length = n + 1 := by
  rcases hm.items_cases with
    ⟨hp, ha, hs⟩ | ⟨item, hready, hp, ha, hs⟩ | ⟨m, r, -, -, hp, -, -⟩
  · rw [ha, hs]
    exact h.pending_eq n (hp.symm.trans hn)
  · cases hp.symm.trans hn
    rw [ha, hs, List.length_append, h.settled_all (h.pending_none hready)]
    exact ⟨rfl, rfl⟩
  · cases hp.symm.trans hn

lemma preserves_settled_all (h : s.Inv) (hm : Move interval s s') (hn : s'.pending = none) :
    (settled s'.log).length = (accepted s'.log).length := by
  rcases hm.items_cases with ⟨hp, ha, hs⟩ | ⟨item, -, hp, -, -⟩ | ⟨m, r, hpending, -, -, ha, hs⟩
  · rw [ha, hs, h.settled_all (hp.symm.trans hn)]
  · cases hp.symm.trans hn
  · obtain ⟨hsettled, haccepted⟩ := h.pending_eq _ hpending
    rw [ha, hs, List.length_append, List.length_singleton]
    omega

lemma preserves_pending_none (h : s.Inv) (hm : Move interval s s') (hready : s'.ready = true) :
    s'.pending = none := by
  cases hm with
  | settle => rfl
  | fail => rfl
  | permit hpending => exact hpending
  | accept => cases hready
  | refuse => cases hready
  | _ => exact h.pending_none hready

lemma preserves_closed (h : s.Inv) (hm : Move interval s s') (hexit : s'.phase = .exited) :
    ch.isOpen s'.channel = false := by
  cases hm with
  | accept _ _ hsend =>
      have hopen := (ch.startSend_ok hsend).1
      rw [h.closed hexit] at hopen
      cases hopen
  | closeChannel => exact ch.isOpen_closeChannel _
  | receive => cases hexit
  | leave => cases hexit
  | timeout => cases hexit
  | finish r => cases r <;> cases hexit
  | finishBeat r => cases r <;> cases hexit
  | shutDown => exact ch.isOpen_dropReceiver _
  | _ => exact h.closed hexit

/-- Every move keeps the invariant. -/
theorem preserve (h : s.Inv) (hm : Move interval s s') : s'.Inv where
  toCallOk := h.preserves_callOk hm
  numbered := h.preserves_numbered hm
  slot := h.preserves_slot hm
  sent_iff := h.preserves_sent_iff hm
  cancelled := h.preserves_cancelled hm
  result_of_handed := h.preserves_result_of_handed hm
  handed_of_result := h.preserves_handed_of_result hm
  report_of_settled := h.preserves_report_of_settled hm
  settled_numbered := h.preserves_settled_numbered hm
  pending_eq := h.preserves_pending_eq hm
  settled_all := h.preserves_settled_all hm
  pending_none := h.preserves_pending_none hm
  closed := h.preserves_closed hm

end Inv

end Pumped

end AsyncStomp
