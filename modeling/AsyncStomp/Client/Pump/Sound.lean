/-
# No lost, duplicated or misreported write

What the server gets is the encoding of the accepted items in order, with heart-beats
between them, and what the caller is told of an item is what the writer returned for it
(`Pumped.sound_of_run`).
-/
import AsyncStomp.Client.Pump.Inv

namespace AsyncStomp

open Tasks

/-- The bytes of entries. -/
def bytesOf (es : List Entry) : Bytes := encodeAll (es.map Entry.toItem) []

lemma bytesOf_append (xs ys : List Entry) : bytesOf (xs ++ ys) = bytesOf xs ++ bytesOf ys := by
  simp [bytesOf, encodeAll_eq]

lemma bytesOf_singleton (e : Entry) : bytesOf [e] = e.toItem.bytes := by
  simp [bytesOf, encodeAll_eq]

/-- What the writer is working on while the pump is in its loop. -/
def Phase.inHand : Phase → List Entry
  | .writing n item => [.own n item]
  | .beating => [.beat]
  | _ => []

namespace Pumped

variable {ch : Mpsc (ℕ × Item)} {ε : Type}

/-- What has been handed to the writer and what has come of it. -/
structure WriterOk (s : Pumped ch ε) : Prop where
  in_loop : s.phase ≠ .closing → s.phase ≠ .exited → handed s.log = written s.log ++ s.phase.inHand
  buffer_nil : s.phase = .receiving → s.buffer = []
  last : ∃ tail, handed s.log = written s.log ++ tail ∧ tail.length ≤ 1
  wire_buffer : s.wire ++ s.buffer = bytesOf (handed s.log)
  wire_written : bytesOf (written s.log) <+: s.wire

/-- An error that is taken from a oneshot is returned by the operation that takes it. -/
def ErrorsAnswered (log : List (Event ε)) : Prop :=
  ∀ xs n e, xs ++ [.settled n (.error e)] <+: log →
    ∃ op, xs ++ [.settled n (.error e), .answered op (.error e)] <+: log

/-- A connection on which no write is lost, duplicated or misreported. -/
structure Sound (s : Pumped ch ε) : Prop where
  /-- Channel and pump together hold one unfinished item at most. -/
  one_unfinished : (ch.queue s.channel).length + (s.phase.inHand.filterMap Entry.ownItem).length ≤ 1
  /-- The channel is never full. -/
  never_full : .refused .full ∉ s.log
  /-- `start_send`, called after a `poll_ready` or by a future, finds no oneshot to overwrite. -/
  never_overwritten : (s.ready = true ∨ ∃ f i, s.call = .starting f i) → s.pending = none
  /-- Items are numbered as they are accepted, and handed over in that order with none left out. -/
  numbered : (accepted s.log).map Prod.fst = List.range (accepted s.log).length
  in_order : handedItems s.log <+: accepted s.log
  /-- Everything that was handed over is written as a whole before anything else is, so that
  heart-beats stand between items. -/
  whole : ∃ tail, handed s.log = written s.log ++ tail ∧ tail.length ≤ 1
  wire : bytesOf (written s.log) <+: s.wire ∧ s.wire <+: bytesOf (handed s.log)
  /-- A `send` that has returned `Ok` has had its item written and flushed. -/
  sent : ∀ n item, .sent n item ∈ s.log → (n, item) ∈ accepted s.log ∧ .own n item ∈ written s.log
  /-- Items are reported on in order, each once, and all but the pending one. -/
  settled_numbered : (settled s.log).map Prod.fst = List.range (settled s.log).length
  settled_pending : ∀ n, s.pending = some n → (settled s.log).length = n ∧
    (accepted s.log).length = n + 1
  settled_all : s.pending = none → (settled s.log).length = (accepted s.log).length
  /-- `Ok` is reported if and only if the item was written and flushed, an error of the writer if
  and only if the writer returned it, and that the connection is closed if and only if the item
  was never handed to the writer. -/
  settled_ok : ∀ n r, (n, r) ∈ settled s.log →
    (r = .ok () ↔ ∃ item, .own n item ∈ written s.log)
  settled_writer : ∀ n r e, (n, r) ∈ settled s.log →
    (r = .error (.writer e) ↔ (n, .error e) ∈ results s.log)
  settled_closed : ∀ n r, (n, r) ∈ settled s.log →
    (r = .error .closed ↔ n ∉ (handedItems s.log).map Prod.fst)
  /-- No error goes unseen. -/
  errors_answered : ErrorsAnswered s.log
  /-- Once the pump has ended no operation waits for a report. -/
  no_wait : s.phase = .exited → ∀ n, s.pending = some n → s.oneshots n ≠ .waiting

variable {s s' : Pumped ch ε} {interval : Option ℕ}

/-! ### The writer -/

namespace WriterOk

lemma congr (h : s.WriterOk) (hphase : s'.phase = s.phase) (hbuffer : s'.buffer = s.buffer)
    (hwire : s'.wire = s.wire) (hhanded : handed s'.log = handed s.log)
    (hwritten : written s'.log = written s.log) : s'.WriterOk := by
  refine ⟨?_, ?_, ?_, ?_, ?_⟩
  · rw [hphase, hhanded, hwritten]
    exact h.in_loop
  · rw [hphase, hbuffer]
    exact h.buffer_nil
  · rw [hhanded, hwritten]
    exact h.last
  · rw [hwire, hbuffer, hhanded]
    exact h.wire_buffer
  · rw [hwritten, hwire]
    exact h.wire_written

/-- An entry is handed over when everything before it is written. -/
lemma hand (h : s.WriterOk) (hphase : s.phase = .receiving) {phase : Phase} {e : Entry}
    (hin : phase.inHand = [e]) : (s.hand phase e).WriterOk := by
  have hidle : handed s.log = written s.log := by
    have hloop := h.in_loop (by rw [hphase]; simp) (by rw [hphase]; simp)
    rwa [hphase, Phase.inHand, List.append_nil] at hloop <;> simp
  have hhanded : handed (s.hand phase e).log = written s.log ++ [e] := by
    rw [← hidle]
    exact handed_append _ _
  have hwritten : written (s.hand phase e).log = written s.log := written_quiet rfl
  refine ⟨fun _ _ => ?_, ?_, ⟨[e], ?_, le_rfl⟩, ?_, ?_⟩
  · rw [hhanded, hwritten]
    exact congrArg _ hin.symm
  · rintro hreceiving
    have hnone : phase.inHand = [] := by
      have hphase' : phase = .receiving := hreceiving
      rw [hphase']
      rfl
    rw [hin] at hnone
    cases hnone
  · rw [hhanded, hwritten]
  · show s.wire ++ encode e.toItem s.buffer = _
    rw [hhanded, encode_eq, ← List.append_assoc, h.wire_buffer, hidle, bytesOf_append,
      bytesOf_singleton]
  · rw [hwritten]
    exact h.wire_written

/-- An entry that is finished without an error is on the wire. -/
lemma finish (h : s.WriterOk) {e : Entry} (hin : s.phase.inHand = [e])
    (hclosing : s.phase ≠ .closing) (hexit : s.phase ≠ .exited) {r : Except ε Unit}
    (hreturn : s.MayReturn r) (oneshots : ℕ → Oneshot (Except ε Unit)) :
    ({ s with phase := afterSend r, oneshots := oneshots }.note [.finished e r]).WriterOk := by
  have hloop := h.in_loop hclosing hexit
  rw [hin] at hloop
  have hhanded : handed (s.log ++ [.finished e r]) = handed s.log := handed_quiet rfl
  cases r with
  | ok u =>
      -- nothing is left in the buffer, so everything that was handed over is on the wire
      have hbuffer : s.buffer = [] := hreturn
      have hwritten : written (s.log ++ [.finished e (.ok u)]) = handed s.log := by
        rw [hloop]
        exact written_append _ _
      have hwire := h.wire_buffer
      rw [hbuffer, List.append_nil] at hwire
      refine ⟨fun _ _ => ?_, fun _ => hbuffer, ⟨[], ?_, by simp⟩, ?_, ?_⟩
      · show handed (s.log ++ _) = written (s.log ++ _) ++ _
        rw [hhanded, hwritten]
        exact (List.append_nil _).symm
      · show handed (s.log ++ _) = written (s.log ++ _) ++ _
        rw [hhanded, hwritten, List.append_nil]
      · show s.wire ++ s.buffer = bytesOf (handed (s.log ++ _))
        rw [hhanded, h.wire_buffer]
      · show bytesOf (written (s.log ++ _)) <+: s.wire
        exact hwritten ▸ hwire ▸ List.prefix_rfl
  | error x =>
      -- the entry stays the only one that was handed over and not written
      have hwritten : written (s.log ++ [.finished e (.error x)]) = written s.log :=
        written_quiet rfl
      refine ⟨fun hc _ => absurd rfl hc, by simp [note, afterSend], ⟨[e], ?_, le_rfl⟩, ?_, ?_⟩
      · show handed (s.log ++ _) = written (s.log ++ _) ++ _
        rw [hhanded, hwritten, hloop]
      · show s.wire ++ s.buffer = bytesOf (handed (s.log ++ _))
        rw [hhanded, h.wire_buffer]
      · show bytesOf (written (s.log ++ _)) <+: s.wire
        rw [hwritten]
        exact h.wire_written

lemma preserve (h : s.WriterOk) (hm : Move interval s s') : s'.WriterOk := by
  cases hm with
  | @receive n item channel hphase _ =>
      have hchannel : ({ s with channel := channel } : Pumped ch ε).WriterOk :=
        h.congr rfl rfl rfl rfl rfl
      exact hchannel.hand hphase rfl
  | timeout hphase _ => exact h.hand hphase rfl
  | leave =>
      exact ⟨fun hc _ => absurd rfl hc, by simp, h.last, h.wire_buffer, h.wire_written⟩
  | transmit k hphase =>
      refine ⟨h.in_loop, fun hr => absurd hr hphase.1, h.last, ?_, ?_⟩
      · show s.wire ++ s.buffer.take k ++ s.buffer.drop k = _
        rw [List.append_assoc, List.take_append_drop, h.wire_buffer]
      · exact h.wire_written.trans (List.prefix_append _ _)
  | finish r hphase hreturn =>
      exact h.finish (by rw [hphase]; rfl) (by simp [hphase]) (by simp [hphase]) hreturn _
  | finishBeat r hphase hreturn =>
      exact h.finish (by rw [hphase]; rfl) (by simp [hphase]) (by simp [hphase]) hreturn _
  | shutDown r hphase =>
      have hhanded : handed (s.log ++ [.shutDown r]) = handed s.log := handed_quiet rfl
      have hwritten : written (s.log ++ [.shutDown r]) = written s.log := written_quiet rfl
      refine ⟨fun _ hx => absurd rfl hx, by simp [note], ?_, ?_, ?_⟩
      · rw [note_log, hhanded, hwritten]
        exact h.last
      · rw [note_log, hhanded]
        exact h.wire_buffer
      · rw [note_log, hwritten]
        exact h.wire_written
  | permit | await | flush | closeChannel | dropTransport => exact h.congr rfl rfl rfl rfl rfl
  | _ => exact h.congr rfl rfl rfl (handed_quiet rfl) (written_quiet rfl)

end WriterOk

/-! ### What is told of it -/

lemma mem_concat_of_ne {log : List (Event ε)} {ev x : Event ε} (h : ev ≠ x) :
    ev ∈ log ++ [x] ↔ ev ∈ log := by
  rw [List.mem_append, List.mem_singleton, or_iff_left h]

lemma written_subset_append (xs ys : List (Event ε)) : written xs ⊆ written (xs ++ ys) := by
  rw [written_append]
  exact List.subset_append_left _ _

lemma Move.written_subset (hm : Move interval s s') : written s.log ⊆ written s'.log := by
  cases hm with
  | permit | await | flush | closeChannel | dropTransport | leave | transmit =>
      exact List.Subset.refl _
  | _ => exact written_subset_append _ _

/-- The future of a `send` returns `Ok` for an accepted item whose oneshot says so. -/
lemma Move.sent_cases (hm : Move interval s s') {n : ℕ} {item : Item}
    (hmem : .sent n item ∈ s'.log) :
    .sent n item ∈ s.log ∨ (s.oneshots n = .sent (.ok ()) ∧ (n, item) ∈ accepted s.log) := by
  cases hm with
  | @sent m i hok hitem =>
      rcases List.mem_append.1 hmem with hold | hnew
      · exact Or.inl hold
      · obtain ⟨rfl, rfl⟩ : n = m ∧ item = i := by simpa using hnew
        exact Or.inr ⟨hok, hitem⟩
  | fail => exact Or.inl (by simpa [note] using hmem)
  | permit | await | flush | closeChannel | dropTransport | leave | transmit => exact Or.inl hmem
  | _ => exact Or.inl ((mem_concat_of_ne (by simp)).1 hmem)

lemma errorsAnswered_append_of_ne {log : List (Event ε)} (h : ErrorsAnswered log) {ev : Event ε}
    (hev : ∀ n e, ev ≠ .settled n (.error e)) : ErrorsAnswered (log ++ [ev]) := by
  intro xs n e hprefix
  rcases List.prefix_concat_iff.1 hprefix with heq | hold
  · exact absurd (List.append_inj_right' heq rfl) (by simpa using (hev n e).symm)
  · obtain ⟨op, hop⟩ := h xs n e hold
    exact ⟨op, hop.trans (List.prefix_append _ _)⟩

/-- The prefixes of the log that end with an event are those up to where it was recorded. -/
lemma errorsAnswered_append_pair {log : List (Event ε)} (h : ErrorsAnswered log) (n : ℕ)
    (e : SinkError ε) (op : Op) :
    ErrorsAnswered (log ++ [.settled n (.error e), .answered op (.error e)]) := by
  intro xs m x hprefix
  have hsplit : log ++ [.settled n (.error e), .answered op (.error e)] =
      (log ++ [.settled n (.error e)]) ++ [Event.answered op (.error e)] := by simp
  rw [hsplit] at hprefix
  rcases List.prefix_concat_iff.1 hprefix with heq | hprefix
  · cases List.append_inj_right' heq rfl
  · rcases List.prefix_concat_iff.1 hprefix with heq | hold
    · obtain rfl := List.append_inj_left' heq rfl
      cases List.append_inj_right' heq rfl
      exact ⟨op, List.prefix_rfl⟩
    · obtain ⟨op', hop⟩ := h xs m x hold
      exact ⟨op', hop.trans (List.prefix_append _ _)⟩

lemma Move.preserves_errorsAnswered (h : ErrorsAnswered s.log) (hm : Move interval s s') :
    ErrorsAnswered s'.log := by
  cases hm with
  | fail => exact errorsAnswered_append_pair h _ _ _
  | permit | await | flush | closeChannel | dropTransport | leave | transmit => exact h
  | _ => exact errorsAnswered_append_of_ne h (by simp)

namespace Inv

lemma preserves_never_full (h : s.Inv) (hfull : .refused .full ∉ s.log)
    (hm : Move interval s s') : .refused .full ∉ s'.log := by
  have hkept : ∀ {ev : Event ε}, .refused .full ≠ ev → .refused .full ∉ s.log ++ [ev] :=
    fun hne hmem => hfull ((mem_concat_of_ne hne).1 hmem)
  cases hm with
  | @refuse item e hready _ hsend =>
      have he : e ≠ .full := by
        rintro rfl
        exact ch.startSend_full hsend (h.queue_eq_nil (h.pending_none hready))
      exact hkept (by simp [he.symm])
  | fail => simpa [note] using hfull
  | permit | await | flush | closeChannel | dropTransport | leave | transmit => exact hfull
  | _ => exact hkept (by simp)

/-- The item under a number. -/
lemma eq_of_mem (h : s.Inv) {n : ℕ} {i j : Item} (hi : (n, i) ∈ accepted s.log)
    (hj : (n, j) ∈ accepted s.log) : i = j := by
  have hinj := List.inj_on_of_nodup_map h.nodup hi hj rfl
  cases hinj
  rfl

/-- An item whose oneshot says `Ok` was written. -/
lemma own_mem_written (h : s.Inv) (hw : s.WriterOk) {n : ℕ} {item : Item}
    (hok : s.oneshots n = .sent (.ok ())) (hmem : (n, item) ∈ accepted s.log) :
    .own n item ∈ written s.log := by
  obtain ⟨i, hi⟩ := mem_results_ok.1 ((h.sent_iff n _).1 hok)
  obtain ⟨tail, hhanded, -⟩ := hw.last
  have hitems : (n, i) ∈ handedItems s.log := by
    rw [mem_handedItems, hhanded]
    exact List.mem_append_left _ hi
  exact h.eq_of_mem (h.handedItems_subset hitems) hmem ▸ hi

lemma preserves_sent (h : s.Inv) (hw : s.WriterOk)
    (hsent : ∀ n item, .sent n item ∈ s.log →
      (n, item) ∈ accepted s.log ∧ .own n item ∈ written s.log)
    (hm : Move interval s s') (n : ℕ) (item : Item) (hmem : .sent n item ∈ s'.log) :
    (n, item) ∈ accepted s'.log ∧ .own n item ∈ written s'.log := by
  have hkept : (n, item) ∈ accepted s.log ∧ .own n item ∈ written s.log := by
    rcases hm.sent_cases hmem with hold | ⟨hok, hitem⟩
    · exact hsent n item hold
    · exact ⟨hitem, h.own_mem_written hw hok hitem⟩
  exact ⟨hm.accepted_prefix.subset hkept.1, hm.written_subset hkept.2⟩

end Inv

/-! ### Runs -/

/-- The whole invariant. -/
structure Good (s : Pumped ch ε) : Prop where
  inv : s.Inv
  writer : s.WriterOk
  never_full : .refused .full ∉ s.log
  sent : ∀ n item, .sent n item ∈ s.log →
    (n, item) ∈ accepted s.log ∧ .own n item ∈ written s.log
  errors : ErrorsAnswered s.log

lemma Good.preserve (h : s.Good) (hm : Move interval s s') : s'.Good where
  inv := h.inv.preserve hm
  writer := h.writer.preserve hm
  never_full := h.inv.preserves_never_full h.never_full hm
  sent := h.inv.preserves_sent h.writer h.sent hm
  errors := hm.preserves_errorsAnswered h.errors

lemma good_start (ch : Mpsc (ℕ × Item)) (ε : Type) : (start ch ε).Good where
  inv := {
    starting := by simp [start]
    flushing := by simp [start]
    numbered := rfl
    slot := .free ch.queue_new (by simp [start]) rfl
    sent_iff := by simp [start, results]
    cancelled := by simp [start]
    result_of_handed := by simp [start, handedItems, handed]
    handed_of_result := by simp [start, results]
    report_of_settled := by simp [start, settled]
    settled_numbered := rfl
    pending_eq := by simp [start]
    settled_all := fun _ => rfl
    pending_none := by simp [start]
    closed := by simp [start] }
  writer := ⟨fun _ _ => rfl, fun _ => rfl, ⟨[], rfl, by simp⟩, rfl, List.prefix_rfl⟩
  never_full := by simp [start]
  sent := by simp [start]
  errors := by
    intro xs n e h
    simp [start] at h

lemma good_of_run {as : List (Action ε)} (h : run (step interval) (start ch ε) as = some s) :
    s.Good :=
  Refines.run_invariant (fun s a s' hI => refines_move interval s a s' hI.inv.toCallOk)
    (fun _ _ hm hI => hI.preserve hm) h (good_start ch ε)

namespace Inv

lemma one_unfinished (h : s.Inv) :
    (ch.queue s.channel).length + (s.phase.inHand.filterMap Entry.ownItem).length ≤ 1 := by
  have hnone : (∀ m i, s.phase ≠ .writing m i) → s.phase.inHand.filterMap Entry.ownItem = [] := by
    intro hp
    cases hphase : s.phase with
    | writing m i => exact absurd hphase (hp m i)
    | _ => rfl
  cases h.slot with
  | free hq hp _ => simp [hq, hnone hp]
  | queued n item hq hp _ _ _ => simp [hq, hnone hp]
  | writing n item hq hp _ _ _ => simp [hq, hp, Phase.inHand, Entry.ownItem]
  | lost n item hq hx _ _ => simp [hq, hnone (by simp [hx])]

lemma in_order (h : s.Inv) : handedItems s.log <+: accepted s.log := by
  cases h.slot with
  | free _ _ hi => exact hi ▸ List.prefix_rfl
  | queued _ _ _ _ _ hi _ => exact hi ▸ List.prefix_append _ _
  | writing _ _ _ _ hi _ _ => exact hi ▸ List.prefix_rfl
  | lost _ _ _ _ hi _ => exact hi ▸ List.prefix_append _ _

lemma settled_ok (h : s.Inv) {n : ℕ} {r : Report ε} (hr : (n, r) ∈ settled s.log) :
    r = .ok () ↔ ∃ item, .own n item ∈ written s.log := by
  have hreport := h.report_of_settled n r hr
  rw [← mem_results_ok, ← h.sent_iff]
  constructor
  · rintro rfl
    exact report_eq_ok hreport
  · intro hsent
    rw [hsent] at hreport
    exact (Option.some.inj hreport).symm

lemma settled_writer (h : s.Inv) {n : ℕ} {r : Report ε} (hr : (n, r) ∈ settled s.log) (e : ε) :
    r = .error (.writer e) ↔ (n, .error e) ∈ results s.log := by
  have hreport := h.report_of_settled n r hr
  rw [← h.sent_iff]
  constructor
  · rintro rfl
    cases ho : s.oneshots n with
    | waiting => simp [ho, report] at hreport
    | sent r =>
        cases r with
        | ok u => simp [ho, report, Except.mapError] at hreport
        | error x => simpa [ho, report, Except.mapError] using hreport
    | cancelled => simp [ho, report] at hreport
  · intro hsent
    rw [hsent] at hreport
    exact (Option.some.inj hreport).symm

lemma settled_closed (h : s.Inv) {n : ℕ} {r : Report ε} (hr : (n, r) ∈ settled s.log) :
    r = .error .closed ↔ n ∉ (handedItems s.log).map Prod.fst := by
  have hreport := h.report_of_settled n r hr
  cases ho : s.oneshots n with
  | waiting => simp [ho, report] at hreport
  | sent r' =>
      obtain ⟨item, hitem⟩ := h.handed_of_result n r' ((h.sent_iff n r').1 ho)
      have hmem : n ∈ (handedItems s.log).map Prod.fst := List.mem_map_of_mem hitem
      have hne : r ≠ .error .closed := by
        rintro rfl
        cases r' <;> simp [ho, report, Except.mapError] at hreport
      simp only [hne, hmem, not_true_eq_false]
  | cancelled =>
      have hclosed : r = .error .closed := by
        rw [ho] at hreport
        exact (Option.some.inj hreport).symm
      simp only [hclosed, (h.cancelled n ho).2.1, not_false_eq_true]

/-- When the pump ends every item is answered, if only by dropping its oneshot. -/
lemma no_wait (h : s.Inv) (hexit : s.phase = .exited) {n : ℕ} (hpending : s.pending = some n) :
    s.oneshots n ≠ .waiting := by
  have hnum : n ∈ (accepted s.log).map Prod.fst := by
    rw [h.numbered, List.mem_range, (h.pending_eq n hpending).2]
    exact Nat.lt_succ_self n
  obtain ⟨⟨m, item⟩, hmem, rfl⟩ := List.mem_map.1 hnum
  have hanswered : (m, item) ∈ handedItems s.log → s.oneshots m ≠ .waiting := by
    intro hitem
    rcases h.result_of_handed m item hitem with hwriting | ⟨r, hr⟩
    · simp [hexit] at hwriting
    · rw [(h.sent_iff m r).2 hr]
      simp
  cases h.slot with
  | free _ _ hi => exact hanswered (hi ▸ hmem)
  | queued _ _ _ _ hx _ _ => exact absurd hexit hx
  | writing _ _ _ hp _ _ _ => simp [hexit] at hp
  | lost k i _ _ hi hc =>
      rw [hi] at hmem
      rcases List.mem_append.1 hmem with hitem | hlast
      · exact hanswered hitem
      · obtain ⟨rfl, rfl⟩ : m = k ∧ item = i := by simpa using hlast
        show s.oneshots m ≠ .waiting
        rw [hc]
        simp

end Inv

/-- **No write is lost, duplicated or misreported**, whatever the tasks do and in whichever order
they do it. -/
theorem sound_of_run (interval : Option ℕ) (as : List (Action ε))
    (h : run (step interval) (start ch ε) as = some s) : s.Sound := by
  obtain ⟨hinv, hwriter, hfull, hsent, herrors⟩ := good_of_run h
  exact {
    one_unfinished := hinv.one_unfinished
    never_full := hfull
    never_overwritten := by
      rintro (hready | ⟨f, i, hcall⟩)
      · exact hinv.pending_none hready
      · exact hinv.pending_none (hinv.starting f i hcall)
    numbered := hinv.numbered
    in_order := hinv.in_order
    whole := hwriter.last
    wire := ⟨hwriter.wire_written, hwriter.wire_buffer ▸ List.prefix_append _ _⟩
    sent := hsent
    settled_numbered := hinv.settled_numbered
    settled_pending := fun n hn => ⟨(hinv.pending_eq n hn).1.symm, (hinv.pending_eq n hn).2⟩
    settled_all := hinv.settled_all
    settled_ok := fun n r hr => hinv.settled_ok hr
    settled_writer := fun n r e hr => hinv.settled_writer hr e
    settled_closed := fun n r hr => hinv.settled_closed hr
    errors_answered := herrors
    no_wait := fun hexit n hn => hinv.no_wait hexit hn }

/-- A `send` that is dropped while its item is being written, a failing write, and an item that is
accepted between the failure and the end of the pump. -/
def failingRun : List (Action String) :=
  [.call true .heartbeat, .pollCall, .pollCall, .dropCall, .receive, .pollFlush,
    .finish (.error "broken pipe"), .pollReady, .pollReady, .startSend .heartbeat,
    .shutDown (.ok ()), .pollFlush]

theorem sound_of_run_failingRun :
    ∃ s : Pumped (Mpsc.bounded _ 1) String,
      run (step (some 10)) (start _ _) failingRun = some s ∧
        settled s.log = [(0, .error (.writer "broken pipe")), (1, .error .closed)] ∧ s.Sound :=
  ⟨_, rfl, rfl, sound_of_run (some 10) failingRun rfl⟩

end Pumped

end AsyncStomp
