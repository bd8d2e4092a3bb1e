/-
# Decoding what a server sends

Two results about whole input streams.  The messages decoded from a stream do not depend
on where the reads fall, as long as no frame exceeds the bound (`feed_eq_of_flatten_eq`).
And a stream of frames with line ends around them decodes to the results of its frames one
by one, whether they convert or not (`decodes_streamOf`).
-/
import AsyncStomp.Codec.Basic

namespace AsyncStomp

open PartialInput PartialInput.Parser

namespace ClientCodec

variable (codec : ClientCodec)

/-! ### Reads -/

/-- The lengths, from the command through the NUL, of the frames that become messages when the
stream is decoded as one buffer. -/
def messageSpans (S : Bytes) : List ℕ :=
  codec.policy.spans (frames isEol (spanned parseThroughNul) S).1

/-- No frame that becomes a message is longer than the bound. -/
def WithinBound (S : Bytes) : Prop := ∀ n ∈ codec.messageSpans S, n ≤ codec.maxFrameSize

instance (S : Bytes) : Decidable (codec.WithinBound S) :=
  inferInstanceAs (Decidable (∀ n ∈ codec.messageSpans S, n ≤ codec.maxFrameSize))

variable {codec}

/-- What `feed` comes to is what one `drain` of the whole stream comes to. -/
lemma feed_drain (cs : List Bytes) (hbound : codec.WithinBound cs.flatten) :
    codec.feed [] cs = codec.drain cs.flatten ∨
      ∃ items e e', codec.feed [] cs = ⟨items, .error e⟩ ∧
        codec.drain cs.flatten = ⟨items, .error e'⟩ := by
  rw [feed_eq_reads, drain_eq_settleStream]
  exact Policy.reads_eq_settle stable_parseThroughNul consumes_parseThroughNul
    parseThroughNul_nil exact_parseThroughNul cs hbound

/-- **Chunking does not matter.**  Two ways of cutting a stream into reads decode to the same
messages, and either both end in an error or both leave the same unfinished bytes. -/
theorem feed_eq_of_flatten_eq (cs₁ cs₂ : List Bytes) (hflatten : cs₁.flatten = cs₂.flatten)
    (hbound : codec.WithinBound cs₁.flatten) :
    (codec.feed [] cs₁).items = (codec.feed [] cs₂).items ∧
      (((∃ e, (codec.feed [] cs₁).outcome = .error e) ∧
          ∃ e, (codec.feed [] cs₂).outcome = .error e) ∨
        ∃ buf, (codec.feed [] cs₁).outcome = .ok buf ∧ (codec.feed [] cs₂).outcome = .ok buf) := by
  have h₁ := feed_drain cs₁ hbound
  have h₂ := feed_drain cs₂ (hflatten ▸ hbound)
  rw [← hflatten] at h₂
  rcases h₁ with h₁ | ⟨items₁, e₁, e₁', h₁, hd₁⟩ <;> rcases h₂ with h₂ | ⟨items₂, e₂, e₂', h₂, hd₂⟩
  · rw [h₁, h₂]
    refine ⟨rfl, ?_⟩
    cases (codec.drain cs₁.flatten).outcome with
    | error e => exact Or.inl ⟨⟨e, rfl⟩, e, rfl⟩
    | ok buf => exact Or.inr ⟨buf, rfl, rfl⟩
  · rw [h₁, h₂, hd₂]
    exact ⟨rfl, Or.inl ⟨⟨e₂', rfl⟩, e₂, rfl⟩⟩
  · rw [h₁, h₂, hd₁]
    exact ⟨rfl, Or.inl ⟨⟨e₁, rfl⟩, e₁', rfl⟩⟩
  · rw [hd₁] at hd₂
    obtain ⟨hitems, -⟩ := Run.mk.inj hd₂
    rw [h₁, h₂, hitems]
    exact ⟨rfl, Or.inl ⟨⟨e₁, rfl⟩, e₂, rfl⟩⟩

/-- A cut inside a line end of a frame that just fits. -/
theorem feed_eq_of_cut_line_end :
    let whole := asBytes "RECEIPT\r\nreceipt-id:7\n\n" ++ [nul, lf]
    let codec : ClientCodec := ⟨24⟩
    (codec.feed [] [whole.take 8, whole.drop 8]).items = (codec.feed [] [whole]).items ∧
      (((∃ e, (codec.feed [] [whole.take 8, whole.drop 8]).outcome = .error e) ∧
          ∃ e, (codec.feed [] [whole]).outcome = .error e) ∨
        ∃ buf, (codec.feed [] [whole.take 8, whole.drop 8]).outcome = .ok buf ∧
          (codec.feed [] [whole]).outcome = .ok buf) :=
  feed_eq_of_flatten_eq _ _ (by decide) (by decide +kernel)

end ClientCodec

/-! ### Streams of frames -/

/-- The line ends around frames: heart-beats, and the optional line end of a frame. -/
structure Gap where
  bytes : Bytes
  eols : ∀ b ∈ bytes, isEol b = true

/-- The frames of a stream, each with the line ends in front of it, and what is behind them. -/
def streamOf : List (Gap × WireFrame) → Bytes → Bytes
  | [], rest => rest
  | (g, w) :: ws, rest => g.bytes ++ (w.bytes ++ streamOf ws rest)

lemma Gap.dropWhile_append (g : Gap) (xs : Bytes) :
    (g.bytes ++ xs).dropWhile isEol = xs.dropWhile isEol :=
  dropWhile_append_of_nil (List.dropWhile_eq_nil_iff.2 g.eols) xs

/-- Behind line ends the parser finds the frame. -/
lemma Gap.parse_frame (g : Gap) (w : WireFrame) (more : Bytes) :
    parseThroughNul ((g.bytes ++ (w.bytes ++ more)).dropWhile isEol) = .ok w.frame more := by
  rw [g.dropWhile_append, w.dropWhile_bytes, w.parseThroughNul_bytes]

namespace ClientCodec

variable (codec : ClientCodec)

/-- The results of calling `decode` `n` times, and the buffer that is left. -/
def decodes : ℕ → Bytes → List (Except Error (Option (Message FromServer))) × Bytes
  | 0, src => ([], src)
  | n + 1, src =>
      ((codec.decode src).1 :: (decodes n (codec.decode src).2).1,
        (decodes n (codec.decode src).2).2)

variable {codec}

/-- A message is decoded from a frame exactly where the frame converts to it. -/
lemma decode_frame_eq_some_iff {g : Gap} {w : WireFrame} {more rest : Bytes}
    {msg : Message FromServer} :
    codec.decode (g.bytes ++ (w.bytes ++ more)) = (.ok (some msg), rest) ↔
      w.frame.toServerMsg = .ok msg ∧ rest = dropLineEnding more := by
  rw [decode_eq_some_iff]
  constructor
  · rintro ⟨f, rest₀, hf, hmsg, hrest⟩
    rw [g.parse_frame] at hf
    cases hf
    exact ⟨hmsg, hrest⟩
  · rintro ⟨hmsg, hrest⟩
    exact ⟨w.frame, more, g.parse_frame w more, hmsg, hrest⟩

/-- Line ends at the beginning of the buffer, more or fewer, make no difference. -/
lemma decodes_congr {xs ys : Bytes} (h : xs.dropWhile isEol = ys.dropWhile isEol) (n : ℕ) :
    codec.decodes (n + 1) xs = codec.decodes (n + 1) ys := by
  rw [decodes, decodes, decode_congr h]

/-- The next frame is decoded on its own, and whatever it converts to, decoding goes on behind
it. -/
lemma decodes_streamOf_cons (g : Gap) (w : WireFrame) (ws : List (Gap × WireFrame))
    (rest : Bytes) (n : ℕ) :
    codec.decodes (n + 2) (streamOf ((g, w) :: ws) rest) =
      (w.frame.toServerMsg.map some :: (codec.decodes (n + 1) (streamOf ws rest)).1,
        (codec.decodes (n + 1) (streamOf ws rest)).2) := by
  rw [decodes, streamOf, decode_of_ok (g.parse_frame w _),
    decodes_congr (dropWhile_dropLineEnding _)]

/-- **A stream of frames decodes frame by frame.**  However the frames are separated, calling
`decode` returns the result of every frame in order, errors of conversion included, and then
`Ok(None)` with nothing left in the buffer. -/
theorem decodes_streamOf (codec : ClientCodec) (ws : List (Gap × WireFrame)) (last : Gap) :
    codec.decodes (ws.length + 1) (streamOf ws last.bytes) =
      (ws.map (fun p => p.2.frame.toServerMsg.map some) ++ [.ok none], []) := by
  induction ws with
  | nil =>
      have hnil := List.dropWhile_eq_nil_iff.2 last.eols
      simp [decodes, streamOf, decode, hnil]
  | cons p ws ih =>
      obtain ⟨g, w⟩ := p
      rw [List.length_cons, decodes_streamOf_cons, ih]
      rfl

end ClientCodec

end AsyncStomp
