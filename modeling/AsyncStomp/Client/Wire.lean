/-
# What a server reads

The bytes on the wire, at any moment of any run, are the frames of the first of the items that were
accepted, in order, and the beginning of the next one.  As long as every item can be encoded, a
server that reads them is never led astray, by the interleaving, by a heart-beat or by a failure
(`served_of_run`).  In this a connection with a pump and one without are the same thing, an ordered
link (`link_of_run`).
-/
import AsyncStomp.Client.Pump.Close
import AsyncStomp.Tasks.Link

namespace AsyncStomp

open PartialInput PartialInput.Parser Tasks Relation

/-! ### The frames of items -/

/-- The frames a server finds where these items were encoded, one for each message. -/
def framesOf (items : List (ℕ × Item)) : List Frame := items.filterMap fun p => p.2.onWire

/-- Every item can be encoded: a message that announces a length of its own, say, is read as
something else. -/
def AllEncodable (items : List (ℕ × Item)) : Prop := ∀ p ∈ items, p.2.Encodable

/-- The items of the caller among these entries. -/
def ownItems (es : List Entry) : List (ℕ × Item) := es.filterMap Entry.ownItem

/-- What a server reads: the frames, and what is left of the bytes. -/
def serverReads (wire : Bytes) : List Frame × Tail UInt8 := frames isEol parseFrame wire

lemma framesOf_mono {xs ys : List (ℕ × Item)} (h : xs <+: ys) : framesOf xs <+: framesOf ys :=
  h.filterMap _

lemma AllEncodable.of_prefix {xs ys : List (ℕ × Item)} (h : AllEncodable ys) (hxs : xs <+: ys) :
    AllEncodable xs := fun p hp => h p (hxs.subset hp)

lemma ownItems_append (xs ys : List Entry) : ownItems (xs ++ ys) = ownItems xs ++ ownItems ys :=
  List.filterMap_append

/-- An entry in front of others: a heart-beat has no frame. -/
lemma framesOf_ownItems_cons (e : Entry) (es : List Entry) :
    framesOf (ownItems (e :: es)) = e.toItem.onWire.toList ++ framesOf (ownItems es) := by
  cases e with
  | beat => rfl
  | own n item => cases hwire : item.onWire <;> simp [framesOf, ownItems, Entry.ownItem,
      Entry.toItem, hwire]

/-- Without a body and without headers of the caller's there is nothing to go wrong. -/
lemma encodable_of_bare {content : ToServer} (hconnect : content.isConnect = false)
    (hcustom : content.customHeaders = []) (hbody : content.body = none) :
    Message.Encodable ⟨content, []⟩ where
  content := hconnect
  custom_ne := by simp [hcustom]
  extra_ne := nofun
  body_lt := by simp [hbody]
  custom_length := by simp [hcustom]
  extra_length := nofun

lemma encodable_cons {e : Entry} {es : List Entry} (h : AllEncodable (ownItems (e :: es))) :
    e.toItem.Encodable ∧ AllEncodable (ownItems es) := by
  cases e with
  | beat => exact ⟨trivial, h⟩
  | own n item => exact List.forall_mem_cons.1 h

lemma bytesOf_cons (e : Entry) (es : List Entry) :
    bytesOf (e :: es) = e.toItem.bytes ++ bytesOf es := by
  rw [← List.singleton_append, bytesOf_append, bytesOf_singleton]

/-! ### Reading them -/

/-- An item in front of other bytes is one frame in front of theirs, or none. -/
lemma serverReads_item {item : Item} (hitem : item.Encodable) (ys : Bytes) :
    serverReads (item.bytes ++ ys) =
      (item.onWire.toList ++ (serverReads ys).1, (serverReads ys).2) := by
  simp only [serverReads, frames_parseFrame]
  cases item with
  | heartbeat =>
      have hgap : ∀ b ∈ [lf], isEol b = true := Eol.lf.isEol_of_mem
      exact frames_filler_append consumes_parseThroughNul hgap ys
  | message msg =>
      have hmsg : msg.Encodable := hitem
      obtain ⟨w, hbytes, hframe⟩ := hmsg.writable.exists_wireFrame
      have hnext := frames_wireFrame w ys
      rw [hbytes, hframe, hmsg.written] at hnext
      exact hnext

/-- Entries in front of other bytes. -/
lemma serverReads_bytesOf {es : List Entry} (hes : AllEncodable (ownItems es)) (ys : Bytes) :
    serverReads (bytesOf es ++ ys) =
      (framesOf (ownItems es) ++ (serverReads ys).1, (serverReads ys).2) := by
  induction es with
  | nil => rfl
  | cons e es ih =>
      obtain ⟨hitem, hrest⟩ := encodable_cons hes
      rw [bytesOf_cons, List.append_assoc, serverReads_item hitem, ih hrest,
        framesOf_ownItems_cons, List.append_assoc]

lemma serverReads_nil : serverReads [] = ([], .waiting []) := by
  rw [serverReads, frames_parseFrame]
  exact frames_eols (by simp)

/-- What is on the wire so far is read first, whatever comes behind it. -/
lemma serverReads_prefix {wire wire' : Bytes} {fs : List Frame} {rest : Bytes}
    (hwire : wire <+: wire') (h : serverReads wire' = (fs, .waiting rest)) :
    ∃ fs' rest', serverReads wire = (fs', .waiting rest') ∧ fs' <+: fs := by
  rw [serverReads, frames_parseFrame] at h
  obtain ⟨fs', rest', hreads, hfs⟩ := frames_of_prefix consumes_parseThroughNul
    stable_parseThroughNul parseThroughNul_nil hwire h
  exact ⟨fs', rest', (frames_parseFrame wire).trans hreads, hfs⟩

/-- What a server has read of a wire it has read of a longer one. -/
lemma serverReads_mono {wire wire' : Bytes} (h : wire <+: wire') :
    (serverReads wire).1 <+: (serverReads wire').1 := by
  obtain ⟨more, rfl⟩ := h
  have hmore : frames isEol parseThroughNul (wire ++ more) = _ :=
    frames_append consumes_parseThroughNul stable_parseThroughNul parseThroughNul_nil wire more
  simp only [serverReads, frames_parseFrame, hmore]
  rcases frames isEol parseThroughNul wire with ⟨fs, rest | rest⟩
  · exact List.prefix_append _ _
  · exact List.prefix_rfl

/-- **Between two entries.**  Where the wire holds all of some entries and the beginning of those
behind them, a server finds the frames of the first, and as many of the others as are there. -/
lemma serverReads_between {done todo : List Entry} {wire : Bytes}
    (henc : AllEncodable (ownItems (done ++ todo))) (hdone : bytesOf done <+: wire)
    (htodo : wire <+: bytesOf (done ++ todo)) :
    ∃ fs rest, serverReads wire = (fs, .waiting rest) ∧ framesOf (ownItems done) <+: fs ∧
      fs <+: framesOf (ownItems (done ++ todo)) := by
  have hall : serverReads (bytesOf (done ++ todo)) =
      (framesOf (ownItems (done ++ todo)), .waiting []) := by
    have hread := serverReads_bytesOf henc []
    rwa [serverReads_nil, List.append_nil, List.append_nil] at hread
  obtain ⟨fs, rest, hreads, hfs⟩ := serverReads_prefix htodo hall
  refine ⟨fs, rest, hreads, ?_, hfs⟩
  obtain ⟨more, rfl⟩ := hdone
  have hfirst : AllEncodable (ownItems done) :=
    henc.of_prefix (by rw [ownItems_append]; exact List.prefix_append _ _)
  rw [serverReads_bytesOf hfirst] at hreads
  rw [← (Prod.mk.inj hreads).1]
  exact List.prefix_append _ _

/-! ### A connection with a pump -/

namespace Pumped

variable {ch : Mpsc (ℕ × Item)} {ε : Type} {s s' : Pumped ch ε} {interval : Option ℕ}

namespace Inv

/-- The first of the accepted items have the first numbers. -/
lemma mem_prefix_iff (h : s.Inv) {l : List (ℕ × Item)} (hl : l <+: accepted s.log) {n : ℕ} :
    n ∈ l.map Prod.fst ↔ n < l.length := by
  have hnumbers := List.prefix_iff_eq_take.1 (hl.map Prod.fst)
  rw [h.numbered, List.length_map, List.take_range, min_eq_left hl.length_le] at hnumbers
  rw [hnumbers, List.mem_range]

/-- With an item all those in front of it are there. -/
lemma take_prefix (h : s.Inv) {l : List (ℕ × Item)} (hl : l <+: accepted s.log) {n : ℕ}
    (hn : n ∈ l.map Prod.fst) : (accepted s.log).take (n + 1) <+: l := by
  have hlt : n < l.length := (h.mem_prefix_iff hl).1 hn
  rw [List.prefix_iff_eq_take.1 hl]
  exact List.take_prefix_take_left hlt

/-- Without an item those behind it are not there either. -/
lemma prefix_take (h : s.Inv) {l : List (ℕ × Item)} (hl : l <+: accepted s.log) {n : ℕ}
    (hn : n ∉ l.map Prod.fst) : l <+: (accepted s.log).take n := by
  have hle : l.length ≤ n := Nat.le_of_not_lt (mt (h.mem_prefix_iff hl).2 hn)
  have htake : (accepted s.log).take l.length <+: (accepted s.log).take n :=
    List.take_prefix_take_left hle
  rwa [← List.prefix_iff_eq_take.1 hl] at htake

end Inv

/-- What is written has been handed over. -/
lemma WriterOk.written_prefix (h : s.WriterOk) :
    ownItems (written s.log) <+: handedItems s.log := by
  obtain ⟨tail, hhanded, -⟩ := h.last
  rw [handedItems, hhanded]
  exact (List.prefix_append _ _).filterMap _

lemma mem_ownItems {es : List Entry} {n : ℕ} {item : Item} (h : .own n item ∈ es) :
    n ∈ (ownItems es).map Prod.fst := by
  have hmem : (n, item) ∈ ownItems es := List.mem_filterMap.2 ⟨_, h, rfl⟩
  exact List.mem_map_of_mem hmem

/-- What the reports mean for the server that reads the wire.  `fs` are the frames it has found. -/
structure Served (s : Pumped ch ε) (fs : List Frame) : Prop where
  /-- They are those of the first of the accepted items. -/
  in_order : fs <+: framesOf (accepted s.log)
  /-- With an item for which a `send` has returned, or an operation has found, `Ok`, the server has
  everything that was accepted up to it. -/
  sent : ∀ n item, .sent n item ∈ s.log → framesOf ((accepted s.log).take (n + 1)) <+: fs
  settled_ok : ∀ n, (n, .ok ()) ∈ settled s.log → framesOf ((accepted s.log).take (n + 1)) <+: fs
  /-- An item that is reported as "Stomp connection closed" has not reached the server, nor has
  anything behind it. -/
  settled_closed : ∀ n, (n, .error .closed) ∈ settled s.log →
    fs <+: framesOf ((accepted s.log).take n)
  /-- The server has one frame at most that the pump does not know to be written. -/
  one_unknown : fs.length ≤ (framesOf (ownItems (written s.log))).length + 1

lemma framesOf_length_le (items : List (ℕ × Item)) : (framesOf items).length ≤ items.length :=
  List.length_filterMap_le _ _

/-- The items are written in order, and one more at most is under way. -/
lemma Good.served (h : s.Good) (henc : AllEncodable (accepted s.log)) :
    ∃ fs rest, serverReads s.wire = (fs, .waiting rest) ∧ s.Served fs := by
  obtain ⟨tail, hhanded, htail⟩ := h.writer.last
  have hitems : ownItems (written s.log ++ tail) = handedItems s.log :=
    congrArg ownItems hhanded.symm
  have horder := h.inv.in_order
  have hwritten : ownItems (written s.log) <+: accepted s.log :=
    h.writer.written_prefix.trans horder
  have hwire : s.wire <+: bytesOf (written s.log ++ tail) := by
    rw [← hhanded, ← h.writer.wire_buffer]
    exact List.prefix_append _ _
  obtain ⟨fs, rest, hreads, hlow, hup⟩ := serverReads_between
    (hitems ▸ henc.of_prefix horder) h.writer.wire_written hwire
  have hdone : ∀ n item, .own n item ∈ written s.log →
      framesOf ((accepted s.log).take (n + 1)) <+: fs := fun n item hmem =>
    (framesOf_mono (h.inv.take_prefix hwritten (mem_ownItems hmem))).trans hlow
  refine ⟨fs, rest, hreads, ?_, ?_, ?_, ?_, ?_⟩
  · rw [hitems] at hup
    exact hup.trans (framesOf_mono horder)
  · exact fun n item hsent => hdone n item (h.sent n item hsent).2
  · intro n hn
    obtain ⟨item, hmem⟩ := (h.inv.settled_ok hn).1 rfl
    exact hdone n item hmem
  · intro n hn
    rw [hitems] at hup
    exact hup.trans (framesOf_mono (h.inv.prefix_take horder ((h.inv.settled_closed hn).1 rfl)))
  · have hlen := hup.length_le
    rw [ownItems_append, framesOf, List.filterMap_append, List.length_append] at hlen
    have htail' : (framesOf (ownItems tail)).length ≤ 1 :=
      (framesOf_length_le _).trans ((List.length_filterMap_le _ _).trans htail)
    exact hlen.trans (Nat.add_le_add_left htail' _)

/-- **What a server reads**, at any moment, whatever the tasks do and in whichever order they do it,
are the frames of the first of the accepted items, and the reports say how far it has got, as long
as every accepted item can be encoded. -/
theorem served_of_run (interval : Option ℕ) (as : List (Action ε))
    (h : run (step interval) (start ch ε) as = some s) (henc : AllEncodable (accepted s.log)) :
    ∃ fs rest, serverReads s.wire = (fs, .waiting rest) ∧ s.Served fs :=
  (good_of_run h).served henc

/-- A message that is written, and a second one that is under way when the connection breaks. -/
def brokenRun : List (Action String) :=
  [.call true (.message ⟨.begin "tx", []⟩), .pollCall, .pollCall, .timeout, .transmit 1,
    .finish (.ok ()), .receive, .transmit 100, .finish (.ok ()), .pollCall,
    .call true (.message ⟨.commit "tx", []⟩), .pollCall, .pollCall, .receive, .transmit 4,
    .finish (.error "reset"), .pollCall]

theorem served_of_run_brokenRun :
    ∃ s : Pumped (Mpsc.bounded _ 1) String,
      run (step (some 10)) (start _ _) brokenRun = some s ∧
        settled s.log = [(0, .ok ()), (1, .error (.writer "reset"))] ∧
          ∃ fs rest, serverReads s.wire = (fs, .waiting rest) ∧ s.Served fs := by
  refine ⟨_, rfl, rfl, served_of_run (some 10) brokenRun rfl ?_⟩
  intro p hp
  have hitems : p.2 = .message ⟨.begin "tx", []⟩ ∨ p.2 = .message ⟨.commit "tx", []⟩ := by
    revert p
    decide
  rcases hitems with hitem | hitem
  · rw [hitem]
    exact encodable_of_bare rfl rfl rfl
  · rw [hitem]
    exact encodable_of_bare rfl rfl rfl

/-! ### Both connections as links -/

/-- The connection as a link: the messages that go in and the frames that come out. -/
def link (s : Pumped ch ε) : Link Frame := ⟨framesOf (accepted s.log), (serverReads s.wire).1⟩

/-- What is on the wire stays there. -/
lemma Move.wire_prefix (hm : Move interval s s') : s.wire <+: s'.wire := by
  cases hm with
  | transmit k hphase => exact List.prefix_append _ _
  | _ => exact List.prefix_rfl

/-- A run goes on with what was accepted and written before it. -/
lemma later_of_run (hs : s.Good) {as : List (Action ε)} (h : run (step interval) s as = some s') :
    s'.Good ∧ accepted s.log <+: accepted s'.log ∧ s.wire <+: s'.wire := by
  let I : Pumped ch ε → Prop := fun mid =>
    mid.Good ∧ accepted s.log <+: accepted mid.log ∧ s.wire <+: mid.wire
  have href : Refines I (step interval) (Move interval) := fun mid a mid' hI =>
    refines_move interval mid a mid' hI.1.inv.toCallOk
  have hmove : ∀ mid mid', Move interval mid mid' → I mid → I mid' := by
    rintro mid mid' hm ⟨hgood, haccepted, hwire⟩
    exact ⟨hgood.preserve hm, haccepted.trans hm.accepted_prefix, hwire.trans hm.wire_prefix⟩
  exact href.run_invariant hmove h ⟨hs, List.prefix_rfl, List.prefix_rfl⟩

lemma Good.ordered_link (h : s.Good) (henc : AllEncodable (accepted s.log)) : s.link.Ordered := by
  obtain ⟨fs, rest, hreads, hserved⟩ := h.served henc
  rw [Link.Ordered, link, hreads]
  exact hserved.in_order

/-- A pump at an empty channel has been given everything that was accepted. -/
lemma Inv.handedItems_of_idle (h : s.Inv) (hphase : s.phase = .receiving)
    (hqueue : ch.queue s.channel = []) : handedItems s.log = accepted s.log := by
  cases h.slot with
  | free _ _ hi => exact hi
  | queued n item hq _ _ _ _ => simp [hq] at hqueue
  | writing n item _ hp _ _ _ => cases hphase.symm.trans hp
  | lost n item _ hx _ _ => cases hphase.symm.trans hx

/-- A pump that has nothing to do has delivered everything. -/
lemma Good.delivered_of_idle (h : s.Good) (henc : AllEncodable (accepted s.log))
    (hphase : s.phase = .receiving) (hqueue : ch.queue s.channel = []) :
    s.link.delivered = s.link.accepted := by
  have hitems := h.inv.handedItems_of_idle hphase hqueue
  have hbytes : s.wire = bytesOf (handed s.log) ++ [] := by
    rw [List.append_nil, ← h.writer.wire_buffer, h.writer.buffer_nil hphase, List.append_nil]
  have henc' : AllEncodable (ownItems (handed s.log)) := henc.of_prefix h.inv.in_order
  rw [link, hbytes, serverReads_bytesOf henc', serverReads_nil, ← hitems]
  exact List.append_nil _

/-- A run of the connection is one of the link. -/
lemma moves_link (hs : s.Good) {as : List (Action ε)} (h : run (step interval) s as = some s')
    (henc : AllEncodable (accepted s'.log)) : ReflTransGen Link.Move s.link s'.link := by
  obtain ⟨hgood, haccepted, hwire⟩ := later_of_run hs h
  refine (Link.moves_iff (hs.ordered_link (henc.of_prefix haccepted))).2 ⟨?_, ?_, ?_⟩
  · exact framesOf_mono haccepted
  · exact serverReads_mono hwire
  · exact hgood.ordered_link henc

end Pumped

namespace Direct

variable {ε : Type} {s s' : Direct ε}

/-- The connection as a link: what `start_send` takes goes in. -/
def link (s : Direct ε) : Link Frame := ⟨framesOf (handedItems s.log), (serverReads s.wire).1⟩

/-- What a step leaves as it is. -/
lemma later_of_step {a : Action ε} (h : s.step a = some s') :
    handedItems s.log <+: handedItems s'.log ∧ s.wire <+: s'.wire := by
  have hnote : ∀ evs, handedItems s.log <+: handedItems (s.log ++ evs) := fun evs => by
    rw [handedItems_append]
    exact List.prefix_append _ _
  cases a with
  | startSend item =>
      cases h
      exact ⟨hnote _, List.prefix_rfl⟩
  | transmit k =>
      cases h
      exact ⟨List.prefix_rfl, List.prefix_append _ _⟩
  | pollFlush flush =>
      rcases step_pollFlush h with rfl | ⟨r, -, rfl⟩
      · exact ⟨List.prefix_rfl, List.prefix_rfl⟩
      · exact ⟨hnote _, List.prefix_rfl⟩
  | pollClose flush shutdown =>
      obtain ⟨-, rfl | ⟨r, -, rfl⟩⟩ := step_pollClose h
      · exact ⟨List.prefix_rfl, List.prefix_rfl⟩
      · exact ⟨hnote _, List.prefix_rfl⟩

lemma later_of_run {as : List (Action ε)} (h : run step s as = some s') :
    handedItems s.log <+: handedItems s'.log ∧ s.wire <+: s'.wire := by
  refine run_invariant (I := fun mid => handedItems s.log <+: handedItems mid.log ∧
    s.wire <+: mid.wire) ?_ h ⟨List.prefix_rfl, List.prefix_rfl⟩
  rintro mid a mid' hstep ⟨hitems, hwire⟩
  obtain ⟨hitems', hwire'⟩ := later_of_step hstep
  exact ⟨hitems.trans hitems', hwire.trans hwire'⟩

lemma ok_of_run {as : List (Action ε)} (h : run step (start ε) as = some s) : s.Ok :=
  run_invariant (fun _ a _ hstep hs => Ok.preserve a hstep hs) h (ok_start ε)

/-- The items are written in order, and nothing is left once the buffer is empty. -/
lemma Ok.served (h : s.Ok) (henc : AllEncodable (handedItems s.log)) :
    ∃ fs rest, serverReads s.wire = (fs, .waiting rest) ∧ s.link.Ordered ∧
      (s.buffer = [] → s.link.delivered = s.link.accepted) := by
  have hwire : s.wire <+: bytesOf ([] ++ handed s.log) := by
    rw [List.nil_append, ← h.bytes]
    exact List.prefix_append _ _
  have hall : AllEncodable (ownItems ([] ++ handed s.log)) := henc
  obtain ⟨fs, rest, hreads, -, hup⟩ := serverReads_between hall List.nil_prefix hwire
  refine ⟨fs, rest, hreads, ?_, fun hbuffer => ?_⟩
  · rw [Link.Ordered, link, hreads]
    exact hup
  · have hflushed : s.wire = bytesOf (handed s.log) ++ [] := by
      rw [List.append_nil, ← h.bytes, hbuffer, List.append_nil]
    have hitems : AllEncodable (ownItems (handed s.log)) := henc
    rw [link, hflushed, serverReads_bytesOf hitems, serverReads_nil]
    exact List.append_nil _

/-- A run of the connection is one of the link. -/
lemma moves_link (hs : s.Ok) (hs' : s'.Ok) {as : List (Action ε)} (h : run step s as = some s')
    (henc : AllEncodable (handedItems s'.log)) : ReflTransGen Link.Move s.link s'.link := by
  obtain ⟨hitems, hwire⟩ := later_of_run h
  obtain ⟨-, -, -, hordered', -⟩ := hs'.served henc
  obtain ⟨-, -, -, hordered, -⟩ := hs.served (henc.of_prefix hitems)
  refine (Link.moves_iff hordered).2 ⟨?_, serverReads_mono hwire, hordered'⟩
  exact framesOf_mono hitems

end Direct

/-- **A connection is an ordered link**, with a pump and without, for items that can be encoded.
However a run is divided, each of its parts takes the link from one state to the next: messages go
in and frames come out, in order, none of them lost, repeated or made up; and where there is nothing
left to write all are out. -/
theorem link_of_run (ch : Mpsc (ℕ × Item)) (ε : Type) (interval : Option ℕ) :
    (∀ as bs (s s' : Pumped ch ε), run (Pumped.step interval) (Pumped.start ch ε) as = some s →
        run (Pumped.step interval) s bs = some s' → AllEncodable (accepted s'.log) →
          ReflTransGen Link.Move (Link.new Frame) s.link ∧ ReflTransGen Link.Move s.link s'.link ∧
            (s'.phase = .receiving → ch.queue s'.channel = [] →
              s'.link.delivered = s'.link.accepted)) ∧
      ∀ as bs (s s' : Direct ε), run Direct.step (Direct.start ε) as = some s →
        run Direct.step s bs = some s' → AllEncodable (handedItems s'.log) →
          ReflTransGen Link.Move (Link.new Frame) s.link ∧ ReflTransGen Link.Move s.link s'.link ∧
            (s'.buffer = [] → s'.link.delivered = s'.link.accepted) := by
  constructor
  · intro as bs s s' has hbs henc
    have hs := Pumped.good_of_run has
    obtain ⟨hs', haccepted, -⟩ := Pumped.later_of_run hs hbs
    refine ⟨?_, Pumped.moves_link hs hbs henc, hs'.delivered_of_idle henc⟩
    exact Pumped.moves_link (Pumped.good_start ch ε) has (henc.of_prefix haccepted)
  · intro as bs s s' has hbs henc
    have hs := Direct.ok_of_run has
    have hs' := run_invariant (fun _ a _ hstep hok => Direct.Ok.preserve a hstep hok) hbs hs
    obtain ⟨hitems, -⟩ := Direct.later_of_run hbs
    obtain ⟨-, -, -, -, hdelivered⟩ := hs'.served henc
    refine ⟨?_, Direct.moves_link hs hs' hbs henc, hdelivered⟩
    exact Direct.moves_link (Direct.ok_start ε) hs has (henc.of_prefix hitems)

/-- A BEGIN is handed to the pump, which beats first. -/
def beatFirst : List (Pumped.Action String) :=
  [.call true (.message ⟨.begin "tx", []⟩), .pollCall, .pollCall, .timeout]

/-- The pump writes what it has. -/
def writeAll : List (Pumped.Action String) :=
  [.transmit 1, .finish (.ok ()), .receive, .transmit 100, .finish (.ok ())]

theorem link_of_run_beatFirst :
    ∃ (s s' : Pumped (Mpsc.bounded _ 1) String) (d d' : Direct String),
      run (Pumped.step (some 10)) (Pumped.start _ _) beatFirst = some s ∧
        run (Pumped.step (some 10)) s writeAll = some s' ∧
        run Direct.step (Direct.start String) [.startSend (.message ⟨.begin "tx", []⟩)] = some d ∧
        run Direct.step d [.transmit 7, .transmit 100] = some d' ∧
        s.link.delivered = [] ∧ s'.link.delivered = s'.link.accepted ∧
        d.link.delivered = [] ∧ d'.link.delivered = d'.link.accepted ∧
          s'.link.accepted = d'.link.accepted ∧ s'.link.accepted.length = 1 := by
  obtain ⟨hpumped, hdirect⟩ := link_of_run (Mpsc.bounded _ 1) String (some 10)
  have henc : AllEncodable [(0, .message ⟨.begin "tx", []⟩)] := by
    intro p hp
    obtain rfl := List.mem_singleton.1 hp
    exact encodable_of_bare rfl rfl rfl
  refine ⟨_, _, _, _, rfl, rfl, rfl, rfl, rfl, ?_, rfl, ?_, rfl, rfl⟩
  · exact (hpumped beatFirst writeAll _ _ rfl rfl (by exact henc)).2.2 rfl rfl
  · exact (hdirect [.startSend (.message ⟨.begin "tx", []⟩)] [.transmit 7, .transmit 100] _ _ rfl
      rfl (by exact henc)).2.2 rfl

end AsyncStomp
