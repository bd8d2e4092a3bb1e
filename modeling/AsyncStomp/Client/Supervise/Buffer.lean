/-
# The read buffer stays small

What the bound on the size of a frame is for: a server cannot make the client run out of memory.
Whatever it sends, and however the reads divide it, the socket is read only while the buffer holds
the beginning of a frame within the bound, so that it never grows past the bound and one read
(`buffer_le_of_run`).
-/
import AsyncStomp.Client.Supervise.Sound
import AsyncStomp.Frame.Classify

namespace AsyncStomp

open PartialInput PartialInput.Parser Tasks

/-- Bytes that begin a frame: more has to come, and then they are one. -/
def BeginsFrame (xs : Bytes) : Prop :=
  ∃ (w : WireFrame) (back : Bytes), back ≠ [] ∧ xs ++ back = w.bytes

/-- What the parser asks more for begins a frame. -/
lemma beginsFrame_of_incomplete {xs : Bytes} (h : parseThroughNul xs = .incomplete) :
    BeginsFrame xs := by
  obtain ⟨back, f, rest, hparse, rfl⟩ := completes_parseThroughNul xs h
  obtain ⟨w, hbytes, -⟩ := parseThroughNul_eq_ok_iff.1 hparse
  refine ⟨w, back, ?_, hbytes.trans (List.append_nil _)⟩
  rintro rfl
  rw [List.append_nil, h] at hparse
  cases hparse

namespace ClientCodec

variable {codec : ClientCodec}

/-- The decoder takes bytes off the buffer, and adds none. -/
lemma length_decode_le (src : Bytes) : (codec.decode src).2.length ≤ src.length := by
  have hdrop := length_dropWhile_le isEol src
  cases hp : parseThroughNul (src.dropWhile isEol) with
  | ok f rest =>
      have hlt := consumes_parseThroughNul.length_lt hp
      obtain ⟨eol, hrest, -⟩ := dropLineEnding_spec rest
      have hend := congrArg List.length hrest
      rw [List.length_append] at hend
      rw [decode_of_ok hp]
      show (dropLineEnding rest).length ≤ src.length
      omega
  | incomplete =>
      rw [decode_of_incomplete hp]
      exact hdrop
  | backtrack =>
      rw [decode_of_backtrack hp]
      exact hdrop

/-- A decoder that asks for more leaves what is not a frame yet, within the bound. -/
lemma rest_spec_of_decode_none {src rest : Bytes} (h : codec.decode src = (.ok none, rest)) :
    rest.length ≤ codec.maxFrameSize ∧ parseThroughNul rest = .incomplete := by
  have hrest := rest_of_decode_none h
  cases hp : parseThroughNul (src.dropWhile isEol) with
  | ok f rest₀ =>
      rw [decode_of_ok hp] at h
      cases hf : f.toServerMsg <;> simp [hf, Except.map] at h
  | incomplete =>
      rw [decode_of_incomplete hp] at h
      by_cases hlt : codec.maxFrameSize < (src.dropWhile isEol).length
      · simp [hlt] at h
      · rw [hrest]
        exact ⟨Nat.le_of_not_lt hlt, hp⟩
  | backtrack =>
      rw [decode_of_backtrack hp] at h
      cases h

end ClientCodec

namespace ClientTransport

variable {codec : ClientCodec} {leftover : Bytes} {quiet : ℕ} {incoming : Option ℕ}
  {automatic : Bool} {t t' : ClientTransport}

/-- The length of the longest read. -/
def longestRead (log : List Event) : ℕ :=
  log.foldr (fun ev longest =>
    match ev with
    | .read bs => max bs.length longest
    | _ => longest) 0

lemma longestRead_append (xs ys : List Event) :
    longestRead (xs ++ ys) = max (longestRead xs) (longestRead ys) := by
  induction xs with
  | nil => exact (Nat.zero_max _).symm
  | cons ev xs ih =>
      cases ev with
      | read bs =>
          show max bs.length (longestRead (xs ++ ys)) = max (max bs.length (longestRead xs)) _
          rw [ih, Nat.max_assoc]
      | _ => exact ih

/-- The decoder makes the buffer shorter, or leaves it alone. -/
lemma length_buffer_decode (h : t.decode = some t') :
    t'.reader.buffer.length ≤ t.reader.buffer.length ∧ t.log <+: t'.log := by
  have hlen := t.codec.length_decode_le t.reader.buffer
  have hadvance : ∀ (r : Reader) stage events, r.buffer.length ≤ t.reader.buffer.length →
      (t.advance r stage events).reader.buffer.length ≤ t.reader.buffer.length ∧
        t.log <+: (t.advance r stage events).log := fun r stage events hr => by
    rw [reader_advance, log_advance]
    exact ⟨hr, List.prefix_append _ _⟩
  cases hstage : t.stage with
  | decoding =>
      rcases hdecode : t.codec.decode t.reader.buffer with ⟨e | _ | msg, buffer⟩ <;>
        rw [hdecode] at hlen
      · simp only [decode, hstage, hdecode] at h
        cases h
        exact hadvance _ _ _ hlen
      · simp only [decode, hstage, hdecode] at h
        split at h
        · split at h <;> cases h <;> exact hadvance _ _ _ hlen
        · cases h
          exact hadvance _ _ _ hlen
      · simp only [decode, hstage, hdecode] at h
        cases h
        exact hadvance _ _ _ hlen
  | _ => simp [decode, hstage] at h

/-- A read appends what it returns. -/
lemma buffer_read {k : ℕ} (h : t.read k = some t') :
    t.stage = .reading ∧
      ((∃ bs, t'.log = t.log ++ [.read bs] ∧ t'.reader.buffer = t.reader.buffer ++ bs) ∨
        (t'.reader.buffer = t.reader.buffer ∧ t.log <+: t'.log)) := by
  have hadvance : ∀ (r : Reader) stage events, r.buffer = t.reader.buffer →
      (t.advance r stage events).reader.buffer = t.reader.buffer ∧
        t.log <+: (t.advance r stage events).log := fun r stage events hr => by
    rw [reader_advance, log_advance]
    exact ⟨hr, List.prefix_append _ _⟩
  cases hstage : t.stage with
  | reading =>
      refine ⟨rfl, ?_⟩
      cases hunread : t.unread with
      | cons b bs =>
          simp only [read, hstage, hunread] at h
          cases h
          refine Or.inl ⟨b :: bs.take k, rfl, ?_⟩
          show (Transport.setReader t.transport _).reader.buffer = _
          rw [Transport.reader_setReader]
          rfl
      | nil =>
          right
          cases hpeer : t.peer with
          | connected =>
              simp only [read, hstage, hunread, hpeer] at h
              cases h
              exact hadvance _ _ _ rfl
          | closed =>
              simp only [read, hstage, hunread, hpeer] at h
              split at h
              · cases h
                exact hadvance _ _ _ rfl
              · cases h
                exact hadvance _ _ _ (List.append_nil _)
          | failed =>
              simp only [read, hstage, hunread, hpeer] at h
              cases h
              exact hadvance _ _ _ rfl
  | _ => simp [read, hstage] at h

/-- What a step does to the buffer: a read appends what it returns, and anything else makes the
buffer shorter, or leaves it alone. -/
lemma buffer_of_step {a : Action} (h : t.step a = some t') :
    (∃ bs, t.stage = .reading ∧ t'.log = t.log ++ [.read bs] ∧
        t'.reader.buffer = t.reader.buffer ++ bs) ∨
      (t'.reader.buffer.length ≤ t.reader.buffer.length ∧ t.log <+: t'.log) := by
  cases a with
  | arrive bs =>
      obtain ⟨-, ⟨⟩⟩ := Option.ite_none_right_eq_some.1 h
      exact Or.inr ⟨Nat.le_refl _, List.prefix_append _ _⟩
  | hangUp peer =>
      obtain ⟨-, ⟨⟩⟩ := Option.ite_none_right_eq_some.1 h
      exact Or.inr ⟨Nat.le_refl _, List.prefix_rfl⟩
  | tick d =>
      cases h
      exact Or.inr ⟨Nat.le_refl _, List.prefix_append _ _⟩
  | pollNext =>
      right
      change t.pollNext = some t' at h
      cases hstage : t.stage with
      | idle =>
          simp only [pollNext, hstage] at h
          split at h <;> cases h <;> rw [reader_advance, log_advance] <;>
            exact ⟨Nat.le_refl _, List.prefix_append _ _⟩
      | _ => simp [pollNext, hstage] at h
  | decode => exact Or.inr (length_buffer_decode h)
  | read k =>
      obtain ⟨hstage, ⟨bs, hlog, hbuffer⟩ | ⟨hbuffer, hlog⟩⟩ := buffer_read h
      · exact Or.inl ⟨bs, hstage, hlog, hbuffer⟩
      · exact Or.inr ⟨Nat.le_of_eq (congrArg List.length hbuffer), hlog⟩

/-! ### Runs -/

/-- A reader that reads has asked for more: what it has is the beginning of a frame, and within the
bound. -/
lemma Inv.buffer_of_reading (h : Inv codec leftover quiet incoming automatic t)
    (hstage : t.stage = .reading) :
    t.reader.buffer.length ≤ codec.maxFrameSize ∧ BeginsFrame t.reader.buffer := by
  have hdecode := (h.goes_on (h.live (Or.inr hstage))).settled (h.reading hstage)
  obtain ⟨hle, hparse⟩ := ClientCodec.rest_spec_of_decode_none hdecode
  exact ⟨hle, beginsFrame_of_incomplete hparse⟩

/-- How much the buffer may hold. -/
def bufferBound (codec : ClientCodec) (leftover : Bytes) (log : List Event) : ℕ :=
  max leftover.length (codec.maxFrameSize + longestRead log)

lemma bufferBound_mono {log log' : List Event} (h : log <+: log') :
    bufferBound codec leftover log ≤ bufferBound codec leftover log' := by
  obtain ⟨evs, rfl⟩ := h
  rw [bufferBound, bufferBound, longestRead_append]
  omega

lemma Inv.buffer_le_of_step (hinv : Inv codec leftover quiet incoming automatic t)
    (h : t.reader.buffer.length ≤ bufferBound codec leftover t.log) {a : Action}
    (hstep : t.step a = some t') :
    t'.reader.buffer.length ≤ bufferBound codec leftover t'.log := by
  rcases buffer_of_step hstep with ⟨bs, hstage, hlog, hbuffer⟩ | ⟨hle, hlog⟩
  · -- the reader has asked for what it reads
    have hbound := (hinv.buffer_of_reading hstage).1
    have hread : longestRead [.read bs] = bs.length := Nat.max_zero _
    rw [hbuffer, hlog, bufferBound, longestRead_append, hread, List.length_append]
    omega
  · exact hle.trans (h.trans (bufferBound_mono hlog))

/-- **The read buffer stays small.**  Whatever arrives, and however it is read: before a read the
buffer holds no more than the bound, and what it holds begins a frame; at any time it holds no more
than the bound and one read, or what was left over from the handshake. -/
theorem buffer_le_of_run (codec : ClientCodec) (beats : Bool) (leftover : Bytes)
    (incoming : Option ℕ) (automatic : Bool) (lastRead quiet : ℕ) (as : List Action)
    (h : run step (established codec beats leftover incoming automatic lastRead quiet) as =
      some t) :
    (t.stage = .reading →
        t.reader.buffer.length ≤ codec.maxFrameSize ∧ BeginsFrame t.reader.buffer) ∧
      t.reader.buffer.length ≤ bufferBound codec leftover t.log := by
  let I : ClientTransport → Prop := fun s => Inv codec leftover quiet incoming automatic s ∧
    s.reader.buffer.length ≤ bufferBound codec leftover s.log
  have hstart : I (established codec beats leftover incoming automatic lastRead quiet) := by
    refine ⟨.established codec beats leftover incoming automatic lastRead quiet, ?_⟩
    have hbuffer : (established codec beats leftover incoming automatic lastRead
        quiet).reader.buffer = leftover := by
      cases beats <;> rfl
    rw [hbuffer]
    exact le_max_left _ _
  have hstep : ∀ s a s', s.step a = some s' → I s → I s' := fun s a s' hs hI =>
    ⟨hI.1.preserve (move_of_step a hs), hI.1.buffer_le_of_step hI.2 hs⟩
  obtain ⟨hinv, hle⟩ := run_invariant hstep h hstart
  exact ⟨hinv.buffer_of_reading, hle⟩

/-- A frame that never ends, in two reads. -/
def endlessRun : List Action :=
  [.arrive (asBytes "\nMESSAGE\nkey:aaaaaaaaaaaaaaa"), .pollNext, .decode, .read 15, .decode,
    .read 100]

theorem buffer_le_of_run_endlessRun :
    (∃ t, run step (established ⟨16⟩ false [] none true 0 0) (endlessRun.take 5) = some t ∧
        t.stage = .reading ∧ t.reader.buffer = asBytes "MESSAGE\nkey:aaa" ∧
          BeginsFrame t.reader.buffer) ∧
      ∃ t, run step (established ⟨16⟩ false [] none true 0 0) endlessRun = some t ∧
        t.reader.buffer.length = 27 ∧ bufferBound ⟨16⟩ [] t.log = 32 ∧
          t.reader.buffer.length ≤ bufferBound ⟨16⟩ [] t.log :=
  ⟨⟨_, rfl, rfl, by decide,
      ((buffer_le_of_run ⟨16⟩ false [] none true 0 0 (endlessRun.take 5) rfl).1 rfl).2⟩,
    ⟨_, rfl, by decide, by decide,
      (buffer_le_of_run ⟨16⟩ false [] none true 0 0 endlessRun rfl).2⟩⟩

end ClientTransport

end AsyncStomp
