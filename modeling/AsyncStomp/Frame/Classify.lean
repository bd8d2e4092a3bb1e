/-
# What the outcome of `parse_frame` says

Of every input that does not begin with a line end, `parse_frame` says whether it starts with
a frame of the grammar, could be completed to one, or neither (`parseFrame_classifies`).
The parser asks for more only where more bytes can complete a frame.
-/
import AsyncStomp.Frame.Grammar
import AsyncStomp.PartialInput.Completes

namespace AsyncStomp

open PartialInput PartialInput.Parser

/-! ### What is asked for can be given -/

lemma completes_lineEnding : Completes lineEnding fun _ rest => rest = [] :=
  completes_alt (stable_literal _) (completes_literal _) (completes_literal _)

/-- The check of a line end asks for more only behind a carriage return. -/
lemma lineEndAhead_eq_incomplete {xs : Bytes} (h : lineEndAhead xs = .incomplete) : xs = [cr] := by
  match xs with
  | [b] =>
      by_cases hb : b = cr
      · rw [hb]
      · simp [lineEndAhead, hb] at h
  | b :: c :: rest =>
      by_cases hb : b = cr
      · by_cases hc : c = lf <;> simp [lineEndAhead, hb, hc] at h
      · simp [lineEndAhead, hb] at h

lemma completes_tillLineEnding :
    Completes tillLineEnding fun _ rest => rest = [lf] ∨ rest = [cr, lf] := by
  refine completes_bind (stable_takeTill _) ((completes_takeTill (y := lf) rfl).mono ?_) ?_
  · rintro taken _ rfl
    exact Or.inr ⟨taken, [lf], rfl, Or.inl rfl⟩
  · intro taken xs hxs
    have hahead : lineEndAhead xs = .incomplete := by
      cases h : lineEndAhead xs with
      | ok u rest =>
          rw [bind_of_ok h] at hxs
          cases hxs
      | incomplete => rfl
      | backtrack =>
          rw [bind_of_backtrack h] at hxs
          cases hxs
    rw [lineEndAhead_eq_incomplete hahead]
    exact ⟨[lf], taken, [cr, lf], rfl, Or.inr rfl⟩

lemma completes_parseHeader : Completes parseHeader fun _ rest => rest = [] := by
  have hkey : keyStop letterN = false := rfl
  refine completes_bind (stable_takeTill1 _) ((completes_takeTill1 (y := colon) hkey rfl).mono ?_)
    fun key => completes_bind (stable_literal _) ((completes_literal _).mono ?_)
      fun _ => completes_bind stable_tillLineEnding (completes_tillLineEnding.mono ?_)
        fun value => completes_bind stable_lineEnding (completes_lineEnding.mono ?_)
          fun _ => completes_pure _ _
  · rintro key _ rfl
    exact Or.inl rfl
  · rintro _ _ rfl
    exact Or.inl rfl
  · rintro value _ (rfl | rfl)
    · exact Or.inr ⟨(key, value), [], rfl, rfl⟩
    · exact Or.inr ⟨(key, value), [], rfl, rfl⟩
  · rintro _ _ rfl
    exact Or.inr ⟨(key, value), [], rfl, rfl⟩

lemma consumes_parseHeader : Consumes parseHeader := by
  constructor
  intro xs rest h hp
  obtain ⟨l, hxs, -⟩ := HeaderLine.exists_of_parseHeader hp
  exact ⟨l.bytes, List.ne_nil_of_length_pos l.length_bytes_pos, hxs⟩

lemma completes_parseBody (headers : List Header) :
    Completes (parseBody headers) fun _ rest => rest = [nul] ∨ rest = [] := by
  rw [parseBody]
  cases getContentLength headers with
  | none =>
      refine completes_bind (stable_takeTill _) ((completes_takeTill (y := nul) rfl).mono ?_)
        fun _ => completes_pure _ _
      rintro body _ rfl
      exact Or.inr ⟨isEmptySlice body, [nul], rfl, Or.inl rfl⟩
  | some n =>
      refine completes_bind (stable_take _) ((completes_take _).mono ?_) fun _ => completes_pure _ _
      rintro body _ rfl
      exact Or.inr ⟨some body, [], rfl, Or.inr rfl⟩

lemma completes_alpha1 : Completes alpha1 fun _ rest => rest = [lf] := by
  have halpha : (fun b => !isAlpha b) letterN = false := by decide
  have hlf : (fun b => !isAlpha b) lf = true := by decide
  exact completes_takeTill1 halpha hlf

lemma completes_headers : Completes (repeat0 parseHeader) fun _ rest => rest = [lf] :=
  completes_repeat0 stable_parseHeader consumes_parseHeader completes_parseHeader
    (parseHeader_eol .lf [])

/-- Behind the headers there is always more to read. -/
lemma parseEnd_nil (command : Bytes) (headers : List Header) :
    parseEnd command headers [] = .incomplete := by
  rw [parseEnd, parseBody]
  cases getContentLength headers with
  | none => rfl
  | some n =>
      by_cases hn : n.toNat = 0
      · have htake : take n.toNat [] = .ok ([] : Bytes) [] := by simp [take, hn]
        have hbody : (take n.toNat >>= fun body => pure (some body) :
            Parser UInt8 (Option Bytes)) [] = .ok (some []) [] := bind_of_ok htake
        exact bind_of_ok hbody
      · have htake : take n.toNat ([] : Bytes) = .incomplete := by simp [take, hn]
        exact bind_of_incomplete (bind_of_incomplete htake)

/-- **A frame that has begun can be completed.** -/
theorem completes_parseThroughNul : Completes parseThroughNul fun _ rest => rest = [] := by
  refine completes_bind (stable_takeTill1 _) (completes_alpha1.mono ?_)
    fun command => completes_bind stable_lineEnding (completes_lineEnding.mono ?_)
      fun _ => completes_bind (stable_repeat0 stable_parseHeader) (completes_headers.mono ?_)
        fun headers => completes_bind stable_lineEnding (completes_lineEnding.mono ?_)
          fun _ => completes_bind (stable_parseBody headers) ((completes_parseBody headers).mono ?_)
            fun body => completes_bind (stable_literal _) ((completes_literal _).mono ?_)
              fun _ => completes_pure _ _
  · rintro command _ rfl
    exact Or.inl rfl
  · rintro _ _ rfl
    exact Or.inl rfl
  · rintro headers _ rfl
    exact Or.inl (parseEnd_nil command headers)
  · rintro _ _ rfl
    exact Or.inl (parseEnd_nil command headers)
  · rintro body _ (rfl | rfl)
    · exact Or.inr ⟨⟨command, headers, body⟩, [], rfl, rfl⟩
    · exact Or.inl rfl
  · rintro _ _ rfl
    exact Or.inr ⟨⟨command, headers, body⟩, [], rfl, rfl⟩

/-! ### The outcome -/

/-- What is left behind a frame: one line end is skipped if it is there as a whole. -/
def SkipsEol (tail rest : Bytes) : Prop :=
  (∃ e : Eol, tail = e.bytes ++ rest) ∨
    (rest = tail ∧ ¬ ∃ (e : Eol) (ys : Bytes), tail = e.bytes ++ ys)

lemma dropLineEnding_eq_iff {tail rest : Bytes} :
    dropLineEnding tail = rest ↔ SkipsEol tail rest := by
  rw [dropLineEnding]
  cases h : lineEnding tail with
  | ok a mid =>
      obtain ⟨e, rfl⟩ := exists_eol_of_lineEnding h
      constructor
      · rintro rfl
        exact Or.inl ⟨e, rfl⟩
      · rintro (⟨e', heq⟩ | ⟨-, hnone⟩)
        · rw [heq, lineEnding_bytes] at h
          cases h
          rfl
        · exact absurd ⟨e, mid, rfl⟩ hnone
  | _ =>
      have hnone : ¬ ∃ (e : Eol) (ys : Bytes), tail = e.bytes ++ ys := by
        rintro ⟨e, ys, rfl⟩
        rw [lineEnding_bytes] at h
        cases h
      constructor
      · rintro rfl
        exact Or.inr ⟨rfl, hnone⟩
      · rintro (⟨e, heq⟩ | ⟨rfl, -⟩)
        · exact absurd ⟨e, rest, heq⟩ hnone
        · rfl

/-- The input begins with a complete frame. -/
def HasFrame (xs : Bytes) : Prop := ∃ w : WireFrame, w.bytes <+: xs

lemma hasFrame_iff {xs : Bytes} : HasFrame xs ↔ ∃ f rest, parseThroughNul xs = .ok f rest := by
  constructor
  · rintro ⟨w, rest, rfl⟩
    exact ⟨w.frame, rest, w.parseThroughNul_bytes rest⟩
  · rintro ⟨f, rest, h⟩
    obtain ⟨w, rfl, -⟩ := parseThroughNul_eq_ok_iff.1 h
    exact ⟨w, List.prefix_append _ _⟩

/-- The outcome of `parse_frame` says what the input is. -/
structure Classified (xs : Bytes) : Prop where
  /-- A frame is returned with its parts, and one line end behind it is skipped. -/
  ok : ∀ f rest, parseFrame xs = .ok f rest ↔
    ∃ (w : WireFrame) (tail : Bytes), xs = w.bytes ++ tail ∧ f = w.frame ∧ SkipsEol tail rest
  /-- No other frame is there. -/
  unique : ∀ w w' : WireFrame, w.bytes <+: xs → w'.bytes <+: xs → w.bytes = w'.bytes
  /-- More is asked for where more can complete a frame. -/
  incomplete : parseFrame xs = .incomplete ↔ ¬ HasFrame xs ∧ ∃ ys, HasFrame (xs ++ ys)
  /-- Everything else is an error. -/
  backtrack : parseFrame xs = .backtrack ↔ ¬ ∃ ys, HasFrame (xs ++ ys)

/-- **`parse_frame` accepts exactly its grammar and classifies every other input.** -/
theorem parseFrame_classifies (xs : Bytes) (h : ∀ b ∈ xs.head?, isEol b = false) :
    Classified xs := by
  have hdrop : dropLineEnding xs = xs := by
    refine dropLineEnding_of_dropWhile ?_
    cases xs with
    | nil => rfl
    | cons b bs => exact List.dropWhile_cons_of_neg (by simp [h b rfl])
  have hframe := parseFrame_apply xs
  rw [hdrop] at hframe
  refine ⟨fun f rest => ?_, ?_, ?_, ?_⟩
  · rw [parseFrame_eq_ok_iff, hdrop]
    constructor
    · rintro ⟨tail, hp, rfl⟩
      obtain ⟨w, hxs, hw⟩ := parseThroughNul_eq_ok_iff.1 hp
      exact ⟨w, tail, hxs, hw.symm, dropLineEnding_eq_iff.1 rfl⟩
    · rintro ⟨w, tail, hxs, rfl, hskip⟩
      exact ⟨tail, hxs ▸ w.parseThroughNul_bytes tail, (dropLineEnding_eq_iff.2 hskip).symm⟩
  · -- the parser reads either frame, and leaves the same rest behind it
    rintro w w' ⟨tail, hw⟩ ⟨tail', hw'⟩
    have hparse := w.parseThroughNul_bytes tail
    rw [hw, ← hw', w'.parseThroughNul_bytes tail'] at hparse
    have htail : tail' = tail := by injection hparse
    rw [htail, ← hw] at hw'
    exact List.append_cancel_right hw'.symm
  · have hiff : parseThroughNul xs = .incomplete ↔ _ :=
      incomplete_iff stable_parseThroughNul completes_parseThroughNul
    simp only [hasFrame_iff, ← hiff, hframe]
    cases parseThroughNul xs <;> simp
  · have hiff : parseThroughNul xs = .backtrack ↔ _ :=
      backtrack_iff stable_parseThroughNul completes_parseThroughNul
    simp only [hasFrame_iff, ← hiff, hframe]
    cases parseThroughNul xs <;> simp

/-- A header line that ends in half a line end. -/
theorem parseFrame_classifies_half_eol : Classified (asBytes "SEND\na:b\r") :=
  parseFrame_classifies _ (by decide +kernel)

end AsyncStomp
