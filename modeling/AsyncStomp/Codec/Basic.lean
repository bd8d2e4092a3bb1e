/-
# The codec

`ClientCodec` encodes messages and heart-beats into an output buffer and decodes frames
from an input buffer.  `drain` and `feed` are how a reader uses the decoder: after every
read it is called until it has no further message.  They are an instance of decoding a
stream read by read (`ClientCodec.feed_eq_reads`).
-/
import AsyncStomp.Frame.Convert
import AsyncStomp.Frame.Grammar
import AsyncStomp.Frame.ToFrame
import AsyncStomp.PartialInput.Reads

namespace AsyncStomp

open PartialInput PartialInput.Parser

/-- `ClientCodec` -/
structure ClientCodec where
  maxFrameSize : ℕ
deriving DecidableEq, Repr

/-- What can be encoded: a heart-beat, or a message for the server. -/
inductive Item where
  | heartbeat
  | message (msg : Message ToServer)
deriving DecidableEq, Repr

/-- `encode`: the buffer with the item appended to it. -/
def encode : Item → Bytes → Bytes
  | .heartbeat, dst => dst ++ [lf]
  | .message msg, dst => dst ++ msg.toFrame.serialize

/-- Items encoded one after another into the same buffer. -/
def encodeAll (items : List Item) (dst : Bytes) : Bytes :=
  items.foldl (fun dst item => encode item dst) dst

namespace ClientCodec

variable (codec : ClientCodec)

/-- `decode`: its result, and the buffer it leaves. -/
def decode (src : Bytes) : Except Error (Option (Message FromServer)) × Bytes :=
  -- a frame never starts with a line end, so any in front are heart-beats
  let src := src.dropWhile isEol
  if src.isEmpty then (.ok none, src)
  else
    match parseFrame src with
    | .ok frame rest => (frame.toServerMsg.map some, rest)
    | .incomplete =>
        if codec.maxFrameSize < src.length then (.error (.frameTooLarge codec.maxFrameSize), src)
        else (.ok none, src)
    | .backtrack => (.error .parseFailed, src)

/-- At most `fuel` calls of `decode`, up to the first that has no message. -/
def drainFuel : ℕ → Bytes → Run UInt8 (Message FromServer) Error
  | 0, src => ⟨[], .ok src⟩
  | fuel + 1, src =>
      match codec.decode src with
      | (.ok (some msg), rest) => (drainFuel fuel rest).after [msg]
      | (.ok none, rest) => ⟨[], .ok rest⟩
      | (.error e, _) => ⟨[], .error e⟩

/-- `decode` called until it returns `Ok(None)` or an error. -/
def drain (src : Bytes) : Run UInt8 (Message FromServer) Error :=
  codec.drainFuel (src.length + 1) src

/-- The reads of a connection, appended to the buffer one by one, each followed by a `drain`. -/
def feed : Bytes → List Bytes → Run UInt8 (Message FromServer) Error
  | buf, [] => ⟨[], .ok buf⟩
  | buf, c :: cs =>
      match (codec.drain (buf ++ c)).outcome with
      | .ok buf' => (feed buf' cs).after (codec.drain (buf ++ c)).items
      | .error _ => codec.drain (buf ++ c)

/-- How the decoder treats the frames of a stream. -/
def policy : Policy Frame (Message FromServer) Error where
  convert := Frame.toServerMsg
  limit := codec.maxFrameSize
  overflow := .frameTooLarge codec.maxFrameSize
  malformed := .parseFailed

/-! ### One call of `decode` -/

variable {codec}

lemma decode_dropWhile (src : Bytes) : codec.decode (src.dropWhile isEol) = codec.decode src := by
  rw [decode, decode, List.dropWhile_idempotent]

/-- The decoder sees nothing of the bytes that end lines in front of a frame. -/
lemma decode_congr {xs ys : Bytes} (h : xs.dropWhile isEol = ys.dropWhile isEol) :
    codec.decode xs = codec.decode ys := by
  rw [← decode_dropWhile xs, h, decode_dropWhile ys]

lemma parseFrame_dropWhile (src : Bytes) :
    parseFrame (src.dropWhile isEol) = match parseThroughNul (src.dropWhile isEol) with
      | .ok frame rest => .ok frame (dropLineEnding rest)
      | .incomplete => .incomplete
      | .backtrack => .backtrack := by
  have hdrop := dropLineEnding_of_dropWhile (List.dropWhile_idempotent isEol src)
  cases hp : parseThroughNul (src.dropWhile isEol) <;> simp only [parseFrame_apply, hdrop, hp]

/-- A buffer that is not waiting for input is not empty. -/
lemma isEmpty_of_parse {src : Bytes} (h : parseThroughNul (src.dropWhile isEol) ≠ .incomplete) :
    (src.dropWhile isEol).isEmpty = false :=
  List.isEmpty_eq_false_iff.2 (ne_nil_of_parse parseThroughNul_nil h)

lemma decode_of_ok {src rest : Bytes} {f : Frame}
    (h : parseThroughNul (src.dropWhile isEol) = .ok f rest) :
    codec.decode src = (f.toServerMsg.map some, dropLineEnding rest) := by
  have hne : (src.dropWhile isEol).isEmpty = false := isEmpty_of_parse (by simp [h])
  rw [decode]
  simp only [hne, Bool.false_eq_true, if_false, parseFrame_dropWhile, h]

lemma decode_of_incomplete {src : Bytes}
    (h : parseThroughNul (src.dropWhile isEol) = .incomplete) :
    codec.decode src =
      (if codec.maxFrameSize < (src.dropWhile isEol).length then
        .error (.frameTooLarge codec.maxFrameSize) else .ok none, src.dropWhile isEol) := by
  rw [decode]
  by_cases hnil : (src.dropWhile isEol).isEmpty = true
  · have hlen : (src.dropWhile isEol).length = 0 :=
      List.length_eq_zero_iff.2 (List.isEmpty_iff.1 hnil)
    simp only [hnil, if_true, hlen, Nat.not_lt_zero, if_false]
  · simp only [hnil, if_false, parseFrame_dropWhile, h, Bool.false_eq_true]
    by_cases hlt : codec.maxFrameSize < (src.dropWhile isEol).length
    · simp only [if_pos hlt]
    · simp only [if_neg hlt]

lemma decode_of_backtrack {src : Bytes}
    (h : parseThroughNul (src.dropWhile isEol) = .backtrack) :
    codec.decode src = (.error .parseFailed, src.dropWhile isEol) := by
  have hne : (src.dropWhile isEol).isEmpty = false := isEmpty_of_parse (by simp [h])
  rw [decode]
  simp only [hne, Bool.false_eq_true, if_false, parseFrame_dropWhile, h]

/-- A message is decoded exactly where a frame converts to it. -/
lemma decode_eq_some_iff {src rest : Bytes} {msg : Message FromServer} :
    codec.decode src = (.ok (some msg), rest) ↔ ∃ f rest₀,
      parseThroughNul (src.dropWhile isEol) = .ok f rest₀ ∧ f.toServerMsg = .ok msg ∧
        rest = dropLineEnding rest₀ := by
  cases hp : parseThroughNul (src.dropWhile isEol) with
  | ok f rest₀ =>
      rw [decode_of_ok hp]
      cases hf : f.toServerMsg with
      | ok m =>
          constructor
          · rintro ⟨⟩
            exact ⟨f, rest₀, rfl, hf, rfl⟩
          · rintro ⟨f', rest', ⟨⟩, hmsg, rfl⟩
            rw [hf] at hmsg
            cases hmsg
            rfl
      | error e =>
          constructor
          · rintro ⟨⟩
          · rintro ⟨f', rest', ⟨⟩, hmsg, -⟩
            rw [hf] at hmsg
            cases hmsg
  | incomplete =>
      rw [decode_of_incomplete hp]
      constructor
      · intro h
        by_cases hlt : codec.maxFrameSize < (src.dropWhile isEol).length <;> simp [hlt] at h
      · rintro ⟨f, rest₀, ⟨⟩, -⟩
  | backtrack =>
      rw [decode_of_backtrack hp]
      constructor
      · rintro ⟨⟩
      · rintro ⟨f, rest₀, ⟨⟩, -⟩

/-! ### Draining the buffer -/

lemma drainFuel_congr {xs ys : Bytes} (h : xs.dropWhile isEol = ys.dropWhile isEol) (fuel : ℕ) :
    codec.drainFuel (fuel + 1) xs = codec.drainFuel (fuel + 1) ys := by
  rw [drainFuel, drainFuel, decode_congr h]

/-- Enough fuel decodes what is there. -/
lemma drainFuel_eq_settleStream (xs : Bytes) :
    ∀ fuel, xs.length < fuel →
      codec.drainFuel fuel xs = codec.policy.settleStream isEol parseThroughNul xs := by
  induction xs using frames_induction isEol consumes_parseThroughNul with
  | ok xs f rest hp ih =>
      intro fuel hfuel
      have hlt := consumes_parseThroughNul.length_lt hp
      have hle := length_dropWhile_le isEol xs
      -- one call for this frame, and one at least for the rest
      obtain ⟨n, rfl⟩ : ∃ n, fuel = n + 2 := ⟨fuel - 2, by omega⟩
      have hspan : spanned parseThroughNul (xs.dropWhile isEol) = .ok (f, _) rest :=
        spanned_eq_ok.2 ⟨hp, rfl⟩
      have hsettle := frames_of_ok (consumes_spanned consumes_parseThroughNul) hspan
      rw [drainFuel, decode_of_ok hp, Policy.settleStream, hsettle]
      cases hconv : f.toServerMsg with
      | ok msg =>
          rw [Policy.settle_cons_ok hconv]
          show (codec.drainFuel (n + 1) (dropLineEnding rest)).after [msg] = _
          rw [drainFuel_congr (dropWhile_dropLineEnding rest), ih (n + 1) (by omega)]
          rfl
      | error e => exact (Policy.settle_cons_error hconv _ _).symm
  | incomplete xs hp =>
      intro fuel hfuel
      obtain ⟨n, rfl⟩ : ∃ n, fuel = n + 1 := ⟨fuel - 1, by omega⟩
      rw [drainFuel, decode_of_incomplete hp, Policy.settleStream,
        frames_of_incomplete (spanned_eq_incomplete.2 hp), Policy.settle]
      by_cases hlt : codec.maxFrameSize < (xs.dropWhile isEol).length
      · have hlt' : codec.policy.limit < (xs.dropWhile isEol).length := hlt
        simp only [if_pos hlt, if_pos hlt']
        rfl
      · have hlt' : ¬ codec.policy.limit < (xs.dropWhile isEol).length := hlt
        simp only [if_neg hlt, if_neg hlt']
  | backtrack xs hp =>
      intro fuel hfuel
      obtain ⟨n, rfl⟩ : ∃ n, fuel = n + 1 := ⟨fuel - 1, by omega⟩
      rw [drainFuel, decode_of_backtrack hp, Policy.settleStream,
        frames_of_backtrack (spanned_eq_backtrack.2 hp), Policy.settle]
      rfl

/-- **Draining a buffer settles the stream in it.** -/
theorem drain_eq_settleStream (xs : Bytes) :
    codec.drain xs = codec.policy.settleStream isEol parseThroughNul xs :=
  drainFuel_eq_settleStream xs _ (Nat.lt_succ_self _)

/-- **Feeding a decoder is reading a stream read by read.** -/
theorem feed_eq_reads (cs : List Bytes) (buf : Bytes) :
    codec.feed buf cs = codec.policy.reads isEol parseThroughNul buf cs := by
  induction cs generalizing buf with
  | nil => rfl
  | cons c cs ih =>
      cases hout : (codec.policy.settleStream isEol parseThroughNul (buf ++ c)).outcome <;>
        simp only [feed, Policy.reads, drain_eq_settleStream, ih, hout]

/-! ### Decoding goes on where it stopped -/

lemma drain_congr {xs ys : Bytes} (h : xs.dropWhile isEol = ys.dropWhile isEol) :
    codec.drain xs = codec.drain ys := by
  rw [drain_eq_settleStream, drain_eq_settleStream, Policy.settleStream, Policy.settleStream,
    frames_congr (consumes_spanned consumes_parseThroughNul) h]

/-- A message is decoded first, then what is left of the buffer, whatever arrives behind it. -/
lemma drain_of_decode_some {src rest : Bytes} {msg : Message FromServer}
    (h : codec.decode src = (.ok (some msg), rest)) (ys : Bytes) :
    codec.drain (src ++ ys) = (codec.drain (rest ++ ys)).after [msg] := by
  obtain ⟨f, rest₀, hp, hconv, rfl⟩ := decode_eq_some_iff.1 h
  have hext : parseThroughNul ((src ++ ys).dropWhile isEol) = .ok f (rest₀ ++ ys) :=
    ok_append_of_dropWhile stable_parseThroughNul parseThroughNul_nil hp ys
  have hspan : spanned parseThroughNul ((src ++ ys).dropWhile isEol) = .ok (f, _) (rest₀ ++ ys) :=
    spanned_eq_ok.2 ⟨hext, rfl⟩
  have hrest : (dropLineEnding rest₀ ++ ys).dropWhile isEol = (rest₀ ++ ys).dropWhile isEol := by
    rw [List.dropWhile_append, dropWhile_dropLineEnding, ← List.dropWhile_append]
  rw [drain_congr hrest, drain_eq_settleStream, drain_eq_settleStream, Policy.settleStream,
    frames_of_ok (consumes_spanned consumes_parseThroughNul) hspan,
    Policy.settle_cons_ok (π := codec.policy) hconv]
  rfl

/-- Without a message nothing but line ends is taken off the buffer. -/
lemma rest_of_decode_none {src rest : Bytes} (h : codec.decode src = (.ok none, rest)) :
    rest = src.dropWhile isEol := by
  cases hp : parseThroughNul (src.dropWhile isEol) with
  | ok f rest₀ =>
      rw [decode_of_ok hp] at h
      cases hf : f.toServerMsg with
      | ok m => simp [hf, Except.map] at h
      | error e => simp [hf, Except.map] at h
  | incomplete =>
      rw [decode_of_incomplete hp] at h
      exact (Prod.mk.inj h).2.symm
  | backtrack =>
      rw [decode_of_backtrack hp] at h
      cases h

lemma decode_rest {src rest : Bytes} (h : codec.decode src = (.ok none, rest)) :
    codec.decode rest = (.ok none, rest) := by
  have hdrop : rest.dropWhile isEol = src.dropWhile isEol := by
    rw [rest_of_decode_none h, List.dropWhile_idempotent]
  exact (decode_congr hdrop).trans h

lemma drain_of_decode_none {src rest : Bytes} (h : codec.decode src = (.ok none, rest))
    (ys : Bytes) : codec.drain (src ++ ys) = codec.drain (rest ++ ys) := by
  refine drain_congr ?_
  rw [rest_of_decode_none h, List.dropWhile_append, List.dropWhile_append,
    List.dropWhile_idempotent]

/-- A buffer without a message is drained at once. -/
lemma drain_of_decode_rest {src : Bytes} (h : codec.decode src = (.ok none, src)) :
    codec.drain src = ⟨[], .ok src⟩ := by
  rw [drain, drainFuel, h]

end ClientCodec

end AsyncStomp
