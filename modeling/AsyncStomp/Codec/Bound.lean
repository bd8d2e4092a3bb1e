/-
# The bound on the size of a frame

`decode` looks at the bound only when the buffer holds an unfinished frame.  A frame over
the bound is therefore refused exactly when some read leaves too much of it, or of a frame
in front of it, unfinished in the buffer (`refused_iff`); one that is complete as soon as
the decoder sees it becomes a message (`oversized_frame_becomes_message`).
-/
import AsyncStomp.Codec.Input
import Mathlib.Data.List.Infix

namespace AsyncStomp

open PartialInput PartialInput.Parser

/-- A prefix of two parts ends in the first or in the second. -/
lemma prefix_append_cases {α : Type} {P X Y : List α} (h : P <+: X ++ Y) :
    P <+: X ∨ ∃ Q, P = X ++ Q ∧ Q <+: Y := by
  rcases List.prefix_or_prefix_of_prefix h (List.prefix_append X Y) with hP | ⟨Q, rfl⟩
  · exact Or.inl hP
  · exact Or.inr ⟨Q, rfl, (List.prefix_append_right_inj X).1 h⟩

/-- Where the prefix of a stream ends: behind all the frames, in front of one of them, or inside
one of them. -/
lemma prefix_streamOf_cases {ws : List (Gap × WireFrame)} {rest P : Bytes}
    (h : P <+: streamOf ws rest) :
    (∃ rest', P = streamOf ws rest') ∨
      ∃ A v B, ws = A ++ v :: B ∧
        ((∃ d : Gap, P = streamOf A d.bytes) ∨
          ∃ used back, v.2.bytes = used ++ back ∧ back ≠ [] ∧
            P = streamOf A (v.1.bytes ++ used)) := by
  induction ws generalizing P with
  | nil => exact Or.inl ⟨P, rfl⟩
  | cons v ws ih =>
      rw [streamOf] at h
      rcases prefix_append_cases h with hgap | ⟨P₁, rfl, h₁⟩
      · obtain ⟨d, hd⟩ := hgap
        refine Or.inr ⟨[], v, ws, rfl, Or.inl ⟨⟨P, fun b hb => v.1.eols b ?_⟩, rfl⟩⟩
        rw [← hd]
        exact List.mem_append_left d hb
      · rcases prefix_append_cases h₁ with ⟨back, hback⟩ | ⟨P₂, rfl, h₂⟩
        · by_cases hnil : back = []
          · -- the frame is there as a whole
            rw [hnil, List.append_nil] at hback
            rcases ih List.nil_prefix with ⟨rest', hrest⟩ | ⟨A, u, B, rfl, hcut⟩
            · exact Or.inl ⟨rest', by rw [streamOf, ← hrest, hback, List.append_nil]⟩
            · refine Or.inr ⟨v :: A, u, B, rfl, ?_⟩
              rcases hcut with ⟨d, hd⟩ | ⟨used, back, hu, hne, hP⟩
              · exact Or.inl ⟨d, by rw [streamOf, ← hd, hback, List.append_nil]⟩
              · exact Or.inr ⟨used, back, hu, hne, by
                  rw [streamOf, ← hP, hback, List.append_nil]⟩
          · exact Or.inr ⟨[], v, ws, rfl, Or.inr ⟨P₁, back, hback.symm, hnil, rfl⟩⟩
        · rcases ih h₂ with ⟨rest', rfl⟩ | ⟨A, u, B, rfl, hcut⟩
          · exact Or.inl ⟨rest', rfl⟩
          · refine Or.inr ⟨v :: A, u, B, rfl, ?_⟩
            rcases hcut with ⟨d, rfl⟩ | ⟨used, back, hu, hne, rfl⟩
            · exact Or.inl ⟨d, rfl⟩
            · exact Or.inr ⟨used, back, hu, hne, rfl⟩

/-- A frame that becomes a message. -/
def Converts (w : WireFrame) : Prop := ∃ msg, w.frame.toServerMsg = .ok msg

namespace ClientCodec

variable {codec : ClientCodec}

/-! ### Draining a stream of frames -/

lemma drain_streamOf_cons (g : Gap) (w : WireFrame) (ws : List (Gap × WireFrame))
    (rest : Bytes) :
    codec.drain (streamOf ((g, w) :: ws) rest) =
      match w.frame.toServerMsg with
      | .ok msg => (codec.drain (streamOf ws rest)).after [msg]
      | .error e => ⟨[], .error e⟩ := by
  have hparse : spanned parseThroughNul ((streamOf ((g, w) :: ws) rest).dropWhile isEol) =
      .ok (w.frame, _) (streamOf ws rest) :=
    spanned_eq_ok.2 ⟨g.parse_frame w _, rfl⟩
  rw [drain_eq_settleStream, drain_eq_settleStream, Policy.settleStream,
    frames_of_ok (consumes_spanned consumes_parseThroughNul) hparse, Policy.settle]
  have hconv : codec.policy.convert w.frame = w.frame.toServerMsg := rfl
  rw [hconv]
  cases w.frame.toServerMsg <;> rfl

/-- Frames that convert become messages, and the rest of the stream decides what follows. -/
lemma drain_streamOf_of_converts (codec : ClientCodec) {ws : List (Gap × WireFrame)} (rest : Bytes)
    (hws : ∀ p ∈ ws, Converts p.2) :
    ∃ msgs, msgs.length = ws.length ∧
      codec.drain (streamOf ws rest) = (codec.drain rest).after msgs := by
  induction ws with
  | nil => exact ⟨[], rfl, rfl⟩
  | cons p ws ih =>
      obtain ⟨g, w⟩ := p
      obtain ⟨msgs, hlen, hdrain⟩ := ih fun q hq => hws q (by simp [hq])
      obtain ⟨msg, hmsg⟩ := hws (g, w) (by simp)
      refine ⟨msg :: msgs, by simp [hlen], ?_⟩
      rw [drain_streamOf_cons, hmsg, hdrain]
      simp [Run.after]

/-- A frame that does not convert ends the run. -/
lemma drain_streamOf_of_not_converts (codec : ClientCodec) {ws : List (Gap × WireFrame)}
    (rest : Bytes) (hws : ∃ p ∈ ws, ¬ Converts p.2) :
    (∃ e, (codec.drain (streamOf ws rest)).outcome = .error e) ∧
      (codec.drain (streamOf ws rest)).items.length < ws.length := by
  induction ws with
  | nil => simp at hws
  | cons p ws ih =>
      obtain ⟨g, w⟩ := p
      rw [drain_streamOf_cons]
      cases hmsg : w.frame.toServerMsg with
      | error e => exact ⟨⟨e, rfl⟩, by simp⟩
      | ok msg =>
          obtain ⟨q, hq, hfail⟩ := hws
          have hq' : q ∈ ws := by
            rcases List.mem_cons.1 hq with rfl | hq
            · exact absurd ⟨msg, hmsg⟩ hfail
            · exact hq
          obtain ⟨⟨e, he⟩, hlen⟩ := ih ⟨q, hq', hfail⟩
          exact ⟨⟨e, by simpa using he⟩, by simpa using hlen⟩

/-- A buffer that ends in front of a frame waits for more. -/
lemma drain_gap (d : Gap) : codec.drain d.bytes = ⟨[], .ok []⟩ := by
  have hnil := List.dropWhile_eq_nil_iff.2 d.eols
  have hparse : parseThroughNul (d.bytes.dropWhile isEol) = .incomplete := by
    rw [hnil, parseThroughNul_nil]
  rw [drain_eq_settleStream, Policy.settleStream,
    frames_of_incomplete (spanned_eq_incomplete.2 hparse), hnil, Policy.settle]
  rfl

/-- A buffer that ends inside a frame waits for more unless too much of the frame is there. -/
lemma drain_cut (g : Gap) {w : WireFrame} {used back : Bytes} (hw : w.bytes = used ++ back)
    (hback : back ≠ []) :
    codec.drain (g.bytes ++ used) =
      ⟨[], if codec.maxFrameSize < used.length then .error (.frameTooLarge codec.maxFrameSize)
        else .ok used⟩ := by
  have hdrop : used.dropWhile isEol = used := by
    cases used with
    | nil => rfl
    | cons c cs =>
        -- the first byte of what is there is the first byte of the frame
        have hwhole := w.dropWhile_bytes []
        rw [List.append_nil, hw, List.cons_append] at hwhole
        by_cases hc : isEol c = true
        · rw [List.dropWhile_cons_of_pos hc] at hwhole
          have hlen := congrArg List.length hwhole
          have hle := length_dropWhile_le isEol (cs ++ back)
          rw [List.length_cons] at hlen
          omega
        · exact List.dropWhile_cons_of_neg hc
  have hparse : parseThroughNul ((g.bytes ++ used).dropWhile isEol) = .incomplete := by
    have hwhole := w.parseThroughNul_bytes []
    rw [List.append_nil, hw] at hwhole
    rw [g.dropWhile_append, hdrop]
    exact stable_parseThroughNul.incomplete_of_prefix hwhole hback
  rw [drain_eq_settleStream, Policy.settleStream,
    frames_of_incomplete (spanned_eq_incomplete.2 hparse), g.dropWhile_append, hdrop,
    Policy.settle]
  rfl

/-- The messages of a stream are a prefix of those of any longer one. -/
lemma drain_items_mono (codec : ClientCodec) {P S : Bytes} (h : P <+: S) :
    (codec.drain P).items <+: (codec.drain S).items := by
  obtain ⟨Q, rfl⟩ := h
  rw [drain_eq_settleStream, drain_eq_settleStream]
  exact Policy.settleStream_items_prefix stable_parseThroughNul consumes_parseThroughNul
    parseThroughNul_nil P Q

/-- `feed` stops at the first read behind which the stream so far does not decode. -/
lemma feed_cases (codec : ClientCodec) (cs : List Bytes) :
    ∃ q, q <+: cs ∧ codec.feed [] cs = codec.drain q.flatten ∧
      (∀ q', q' <+: cs → q'.length < q.length →
        ∃ b, (codec.drain q'.flatten).outcome = .ok b) ∧
      ((∃ e, (codec.drain q.flatten).outcome = .error e) ∨
        q = cs ∧ ∃ b, (codec.drain q.flatten).outcome = .ok b) := by
  have hempty : codec.policy.settleStream isEol parseThroughNul [] = ⟨[], .ok []⟩ := by
    rw [← drain_eq_settleStream]
    exact drain_gap ⟨[], by simp⟩
  obtain ⟨q, hq, hrun, hclean, hend⟩ := Policy.reads_cases (π := codec.policy)
    stable_parseThroughNul consumes_parseThroughNul parseThroughNul_nil cs [] []
    (by rw [hempty])
  simp only [← drain_eq_settleStream] at hrun hclean hend
  rw [drain_eq_settleStream, hempty, Run.after_nil, ← feed_eq_reads] at hrun
  exact ⟨q, hq, hrun, hclean, hend⟩

/-! ### When a frame is refused -/

/-- Some read ends inside one of the frames, with more of that frame in the buffer than the bound
allows. -/
def CutOverBound (codec : ClientCodec) (ws : List (Gap × WireFrame)) (cs : List Bytes) : Prop :=
  ∃ q, q <+: cs ∧ ∃ A v B used back, ws = A ++ v :: B ∧ v.2.bytes = used ++ back ∧ back ≠ [] ∧
    q.flatten = streamOf A (v.1.bytes ++ used) ∧ codec.maxFrameSize < used.length

/-- The run ends in an error before it has a message for the frame behind `n` others. -/
def Refused (run : Run UInt8 (Message FromServer) Error) (n : ℕ) : Prop :=
  (∃ e, run.outcome = .error e) ∧ run.items.length ≤ n

/-- A frame that does not convert is refused at the latest behind the frames in front of it. -/
lemma refused_of_not_converts {ws : List (Gap × WireFrame)} {post : Bytes} {cs : List Bytes}
    {n : ℕ} (hn : ws.length = n + 1) (hcs : cs.flatten = streamOf ws post)
    (hws : ∃ p ∈ ws, ¬ Converts p.2) : Refused (codec.feed [] cs) n := by
  obtain ⟨⟨e, he⟩, hlen⟩ := drain_streamOf_of_not_converts codec post hws
  rw [← hcs] at he hlen
  obtain ⟨q, hq, hrun, -, hend⟩ := feed_cases codec cs
  have hitems := (drain_items_mono codec hq.flatten).length_le
  rw [hrun]
  refine ⟨?_, by omega⟩
  rcases hend with herr | ⟨rfl, b, hb⟩
  · exact herr
  · rw [he] at hb
    cases hb

/-- Too much of an unfinished frame in the buffer ends the run. -/
lemma refused_of_cut {ws : List (Gap × WireFrame)} {cs : List Bytes} {n : ℕ}
    (hn : ws.length = n + 1) (hws : ∀ p ∈ ws, Converts p.2) (hcut : codec.CutOverBound ws cs) :
    Refused (codec.feed [] cs) n := by
  obtain ⟨q', hq', A, v, B, used, back, rfl, hv, hback, hflat, hover⟩ := hcut
  obtain ⟨msgs, hlen, hdrain⟩ := drain_streamOf_of_converts codec
    (v.1.bytes ++ used) fun p hp => hws p (List.mem_append_left _ hp)
  rw [← hflat, drain_cut v.1 hv hback, if_pos hover] at hdrain
  have herr : (codec.drain q'.flatten).outcome = .error (.frameTooLarge codec.maxFrameSize) := by
    rw [hdrain, Run.outcome_after]
  obtain ⟨q, hq, hrun, hclean, hend⟩ := feed_cases codec cs
  -- the run cannot get past the read that leaves too much
  have hle : q.length ≤ q'.length := by
    by_contra hlt
    obtain ⟨b, hb⟩ := hclean q' hq' (by omega)
    rw [herr] at hb
    cases hb
  have hprefix : q <+: q' := List.prefix_of_prefix_length_le hq hq' hle
  have hitems := (drain_items_mono codec hprefix.flatten).length_le
  rw [hdrain, Run.items_after, List.append_nil, hlen] at hitems
  rw [hrun]
  constructor
  · rcases hend with herr' | ⟨rfl, b, hb⟩
    · exact herr'
    · have heq : q' = q := hq'.eq_of_length_le hprefix.length_le
      rw [← heq, herr] at hb
      cases hb
  · rw [List.length_append, List.length_cons] at hn
    omega

/-- **When a frame is refused.**  However a stream is cut into reads, the frame behind `pre` is
refused if and only if one of the frames up to it does not convert or some read leaves more of one
of them in the buffer than the bound allows. -/
theorem refused_iff (codec : ClientCodec) (pre : List (Gap × WireFrame)) (g : Gap)
    (w : WireFrame) (post : Bytes) (cs : List Bytes)
    (hcs : cs.flatten = streamOf (pre ++ [(g, w)]) post) :
    Refused (codec.feed [] cs) pre.length ↔
      (∃ p ∈ pre ++ [(g, w)], ¬ Converts p.2) ∨ codec.CutOverBound (pre ++ [(g, w)]) cs := by
  have hlen : (pre ++ [(g, w)]).length = pre.length + 1 := by simp
  by_cases hws : ∃ p ∈ pre ++ [(g, w)], ¬ Converts p.2
  · exact ⟨fun _ => Or.inl hws, fun _ => refused_of_not_converts hlen hcs hws⟩
  · have hconv : ∀ p ∈ pre ++ [(g, w)], Converts p.2 := by
      intro p hp
      by_contra hfail
      exact hws ⟨p, hp, hfail⟩
    constructor
    · rintro ⟨⟨e, he⟩, hitems⟩
      obtain ⟨q, hq, hrun, -, -⟩ := feed_cases codec cs
      rw [hrun] at he hitems
      have hprefix := hq.flatten
      rw [hcs] at hprefix
      rcases prefix_streamOf_cases hprefix with ⟨rest, hrest⟩ | ⟨A, v, B, hsplit, hcut⟩
      · -- all the frames were there, so there was a message for each of them
        obtain ⟨msgs, hmsgs, hdrain⟩ := drain_streamOf_of_converts codec rest hconv
        rw [hrest, hdrain, Run.items_after, List.length_append] at hitems
        omega
      · have hA : ∀ p ∈ A, Converts p.2 := fun p hp => hconv p (by rw [hsplit]; simp [hp])
        rcases hcut with ⟨d, hd⟩ | ⟨used, back, hv, hback, hflat⟩
        · obtain ⟨msgs, -, hdrain⟩ := drain_streamOf_of_converts codec d.bytes hA
          rw [hd, hdrain, Run.outcome_after, drain_gap] at he
          cases he
        · obtain ⟨msgs, -, hdrain⟩ := drain_streamOf_of_converts codec
            (v.1.bytes ++ used) hA
          rw [hflat, hdrain, Run.outcome_after, drain_cut v.1 hv hback] at he
          by_cases hover : codec.maxFrameSize < used.length
          · exact Or.inr ⟨q, hq, A, v, B, used, back, hsplit, hv, hback, hflat, hover⟩
          · rw [if_neg hover] at he
            cases he
    · rintro (hfail | hcut)
      · exact absurd hfail hws
      · exact refused_of_cut hlen hconv hcut

/-- A receipt with the id 7, in 23 bytes. -/
def receiptFrame : WireFrame where
  command := asBytes "RECEIPT"
  commandEol := .lf
  headers := [⟨asBytes "receipt-id", asBytes "7", .lf, by decide, by decide +kernel,
    by decide +kernel⟩]
  blank := .lf
  body := []
  command_ne := by decide
  command_alpha := by decide +kernel
  body_fits := BodyFits.of_none (by decide) (by decide)

/-- A frame over the bound that arrives in two reads, with a bound it exceeds in the first. -/
theorem refused_iff_of_two_reads :
    let codec : ClientCodec := ⟨5⟩
    let w := receiptFrame
    Refused (codec.feed [] [w.bytes.take 10, w.bytes.drop 10]) 0 ↔
      (∃ p ∈ [((⟨[], by simp⟩ : Gap), w)], ¬ Converts p.2) ∨
        codec.CutOverBound [((⟨[], by simp⟩ : Gap), w)] [w.bytes.take 10, w.bytes.drop 10] :=
  refused_iff ⟨5⟩ [] ⟨[], by simp⟩ receiptFrame [] _ (by decide)

/-- **A frame over the bound that is there at once becomes a message**, and the same frame in two
reads is refused. -/
theorem oversized_frame_becomes_message :
    let codec : ClientCodec := ⟨5⟩
    let w := receiptFrame
    codec.maxFrameSize < w.bytes.length ∧ ¬ Refused (codec.feed [] [w.bytes]) 0 ∧
      (codec.feed [] [w.bytes]).items.length = 1 ∧
      Refused (codec.feed [] [w.bytes.take 10, w.bytes.drop 10]) 0 := by
  have hone : ((⟨5⟩ : ClientCodec).feed [] [receiptFrame.bytes]).items.length = 1 := by
    decide +kernel
  refine ⟨by decide, ?_, hone, ⟨_, rfl⟩, by decide +kernel⟩
  rintro ⟨-, hlen⟩
  rw [hone] at hlen
  omega

end ClientCodec

end AsyncStomp
