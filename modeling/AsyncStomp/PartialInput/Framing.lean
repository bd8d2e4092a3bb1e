/-
# A stream of frames with filler between them

A stream is read by skipping filler tokens, parsing one frame, and starting over.
`frames` carries that as far as it goes: the frames it finds, and the tail that no
further frame can be read from, either because more input is needed or because the
tail is malformed.

For a stable parser the frames of a prefix are frames of the whole stream
(`frames_append`).  That is what makes the result independent of how the stream is cut
into pieces.
-/
import AsyncStomp.PartialInput.Stable

namespace PartialInput

universe u v

variable {σ : Type u} {φ : Type v}

/-- What is left of a stream once no further frame can be read from it. -/
inductive Tail (σ : Type u) where
  /-- The beginning of a frame, or nothing at all. -/
  | waiting (rest : List σ)
  /-- Input that no frame begins with. -/
  | broken (rest : List σ)
deriving DecidableEq, Repr

/-- The value of a parser together with the number of tokens it consumed. -/
def Parser.spanned (p : Parser σ φ) : Parser σ (φ × ℕ) := fun xs =>
  match p xs with
  | .ok f rest => .ok (f, xs.length - rest.length) rest
  | .incomplete => .incomplete
  | .backtrack => .backtrack

/-- At most `fuel` frames from the beginning of a stream. -/
def framesFuel (filler : σ → Bool) (parse : Parser σ φ) : ℕ → List σ → List φ × Tail σ
  | 0, xs => ([], .waiting xs)
  | fuel + 1, xs =>
      match parse (xs.dropWhile filler) with
      | .ok f rest =>
          (f :: (framesFuel filler parse fuel rest).1, (framesFuel filler parse fuel rest).2)
      | .incomplete => ([], .waiting (xs.dropWhile filler))
      | .backtrack => ([], .broken (xs.dropWhile filler))

/-- The frames at the beginning of a stream, and the tail behind them. -/
def frames (filler : σ → Bool) (parse : Parser σ φ) (xs : List σ) : List φ × Tail σ :=
  framesFuel filler parse (xs.length + 1) xs

/-! ### Filler -/

lemma dropWhile_append_of_ne_nil {filler : σ → Bool} {xs : List σ}
    (h : xs.dropWhile filler ≠ []) (ys : List σ) :
    (xs ++ ys).dropWhile filler = xs.dropWhile filler ++ ys := by
  rw [List.dropWhile_append, if_neg (by simpa using h)]

lemma dropWhile_append_of_nil {filler : σ → Bool} {xs : List σ}
    (h : xs.dropWhile filler = []) (ys : List σ) :
    (xs ++ ys).dropWhile filler = ys.dropWhile filler := by
  rw [List.dropWhile_append, if_pos (by simpa using h)]

lemma length_dropWhile_le (filler : σ → Bool) (xs : List σ) :
    (xs.dropWhile filler).length ≤ xs.length :=
  (List.dropWhile_sublist filler).length_le

/-! ### Spans -/

namespace Parser

lemma spanned_eq_ok {p : Parser σ φ} {xs rest : List σ} {f : φ} {n : ℕ} :
    spanned p xs = .ok (f, n) rest ↔ p xs = .ok f rest ∧ n = xs.length - rest.length := by
  rw [spanned]
  cases h : p xs with
  | ok g r =>
      constructor
      · intro heq
        cases heq
        exact ⟨rfl, rfl⟩
      · rintro ⟨heq, rfl⟩
        cases heq
        rfl
  | incomplete => simp
  | backtrack => simp

lemma spanned_eq_incomplete {p : Parser σ φ} {xs : List σ} :
    spanned p xs = .incomplete ↔ p xs = .incomplete := by
  rw [spanned]
  cases p xs <;> simp

lemma spanned_eq_backtrack {p : Parser σ φ} {xs : List σ} :
    spanned p xs = .backtrack ↔ p xs = .backtrack := by
  rw [spanned]
  cases p xs <;> simp

lemma consumes_spanned {p : Parser σ φ} (hp : Consumes p) : Consumes (spanned p) := by
  constructor
  rintro xs rest ⟨f, n⟩ h
  exact hp.split (spanned_eq_ok.1 h).1

lemma stable_spanned {p : Parser σ φ} (hp : Stable p) : Stable (spanned p) := by
  constructor
  · rintro xs rest ⟨f, n⟩ h ys
    obtain ⟨hok, rfl⟩ := spanned_eq_ok.1 h
    refine spanned_eq_ok.2 ⟨hp.ok hok ys, ?_⟩
    simp only [List.length_append]
    omega
  · intro xs h ys
    exact spanned_eq_backtrack.2 (hp.backtrack (spanned_eq_backtrack.1 h) ys)

/-- A parser that stops exactly at the end of its input asks for more on every proper prefix. -/
lemma Stable.incomplete_of_prefix {p : Parser σ φ} (hp : Stable p) {xs ys : List σ} {a : φ}
    (h : p (xs ++ ys) = .ok a []) (hys : ys ≠ []) : p xs = .incomplete := by
  cases hx : p xs with
  | ok b rest =>
      have hext := hp.ok hx ys
      rw [h] at hext
      cases rest <;> simp_all
  | incomplete => rfl
  | backtrack =>
      have hext := hp.backtrack hx ys
      rw [h] at hext
      cases hext

end Parser

open PartialInput.Parser

/-! ### One frame at a time -/

section Consuming

variable {filler : σ → Bool} {parse : Parser σ φ}

lemma framesFuel_eq (hc : Consumes parse) :
    ∀ (n m : ℕ) (xs : List σ), xs.length < n → xs.length < m →
      framesFuel filler parse n xs = framesFuel filler parse m xs := by
  intro n
  induction n with
  | zero => intro m xs hn; omega
  | succ n ih =>
      intro m xs hn hm
      cases m with
      | zero => omega
      | succ m =>
          simp only [framesFuel]
          cases hp : parse (xs.dropWhile filler) with
          | ok f rest =>
              have hlt := hc.length_lt hp
              have hle := length_dropWhile_le filler xs
              simp only [ih m rest (by omega) (by omega)]
          | incomplete => rfl
          | backtrack => rfl

lemma frames_of_ok (hc : Consumes parse) {xs rest : List σ} {f : φ}
    (h : parse (xs.dropWhile filler) = .ok f rest) :
    frames filler parse xs =
      (f :: (frames filler parse rest).1, (frames filler parse rest).2) := by
  have hlt := hc.length_lt h
  have hle := length_dropWhile_le filler xs
  rw [frames, framesFuel, h]
  simp only [frames, framesFuel_eq hc xs.length (rest.length + 1) rest (by omega) (by omega)]

lemma frames_of_incomplete {xs : List σ} (h : parse (xs.dropWhile filler) = .incomplete) :
    frames filler parse xs = ([], .waiting (xs.dropWhile filler)) := by
  rw [frames, framesFuel, h]

lemma frames_of_backtrack {xs : List σ} (h : parse (xs.dropWhile filler) = .backtrack) :
    frames filler parse xs = ([], .broken (xs.dropWhile filler)) := by
  rw [frames, framesFuel, h]

/-- The frames of a stream do not depend on the filler in front of it. -/
lemma frames_congr (hc : Consumes parse) {xs ys : List σ}
    (h : xs.dropWhile filler = ys.dropWhile filler) :
    frames filler parse xs = frames filler parse ys := by
  cases hp : parse (xs.dropWhile filler) with
  | ok f rest =>
      have hp' : parse (ys.dropWhile filler) = .ok f rest := h ▸ hp
      rw [frames_of_ok hc hp, frames_of_ok hc hp']
  | incomplete =>
      have hp' : parse (ys.dropWhile filler) = .incomplete := h ▸ hp
      rw [frames_of_incomplete hp, frames_of_incomplete hp', h]
  | backtrack =>
      have hp' : parse (ys.dropWhile filler) = .backtrack := h ▸ hp
      rw [frames_of_backtrack hp, frames_of_backtrack hp', h]

lemma frames_filler_append (hc : Consumes parse) {gap : List σ}
    (hgap : ∀ x ∈ gap, filler x = true) (xs : List σ) :
    frames filler parse (gap ++ xs) = frames filler parse xs := by
  refine frames_congr hc (dropWhile_append_of_nil ?_ xs)
  exact List.dropWhile_eq_nil_iff.2 hgap

/-- Induction over the frames of a stream. -/
lemma frames_induction (filler : σ → Bool) (hc : Consumes parse) {motive : List σ → Prop}
    (ok : ∀ xs f rest, parse (xs.dropWhile filler) = .ok f rest → motive rest → motive xs)
    (incomplete : ∀ xs, parse (xs.dropWhile filler) = .incomplete → motive xs)
    (backtrack : ∀ xs, parse (xs.dropWhile filler) = .backtrack → motive xs)
    (xs : List σ) : motive xs := by
  induction hn : xs.length using Nat.strongRecOn generalizing xs with
  | _ n ih =>
      cases hp : parse (xs.dropWhile filler) with
      | ok f rest =>
          have hlt := hc.length_lt hp
          have hle := length_dropWhile_le filler xs
          exact ok xs f rest hp (ih rest.length (by omega) rest rfl)
      | incomplete => exact incomplete xs hp
      | backtrack => exact backtrack xs hp

/-- A stream that is waiting for input waits behind its filler. -/
lemma frames_waiting_spec (hc : Consumes parse) (xs : List σ) :
    ∀ fs r, frames filler parse xs = (fs, .waiting r) →
      r.dropWhile filler = r ∧ parse r = .incomplete := by
  induction xs using frames_induction filler hc with
  | ok xs f rest hp ih =>
      intro fs r h
      rw [frames_of_ok hc hp] at h
      obtain ⟨-, ht⟩ := Prod.mk.inj h
      exact ih _ r (Prod.ext rfl ht)
  | incomplete xs hp =>
      intro fs r h
      rw [frames_of_incomplete hp] at h
      cases h
      exact ⟨List.dropWhile_idempotent _ _, hp⟩
  | backtrack xs hp =>
      intro fs r h
      rw [frames_of_backtrack hp] at h
      cases h

end Consuming

/-! ### More input -/

section Stable

variable {filler : σ → Bool} {parse : Parser σ φ}

/-- A parser that does not ask for more has been given something. -/
lemma ne_nil_of_parse (hnil : parse [] = .incomplete) {xs : List σ} (h : parse xs ≠ .incomplete) :
    xs ≠ [] := by
  rintro rfl
  exact h hnil

/-- A frame that is complete is read in the same way whatever follows. -/
lemma ok_append_of_dropWhile (hs : Stable parse) (hnil : parse [] = .incomplete)
    {xs rest : List σ} {f : φ} (hp : parse (xs.dropWhile filler) = .ok f rest) (ys : List σ) :
    parse ((xs ++ ys).dropWhile filler) = .ok f (rest ++ ys) := by
  rw [dropWhile_append_of_ne_nil (ne_nil_of_parse hnil (by simp [hp]))]
  exact hs.ok hp ys

/-- What more input makes of the frames so far: the remainder and the input behind it are read
next, unless the stream is broken. -/
def extendFrames (filler : σ → Bool) (parse : Parser σ φ) (ys : List σ) :
    List φ × Tail σ → List φ × Tail σ
  | (fs, .waiting r) => (fs ++ (frames filler parse (r ++ ys)).1, (frames filler parse (r ++ ys)).2)
  | (fs, .broken r) => (fs, .broken (r ++ ys))

/-- **More input continues where the frames of the input so far ended**, and a malformed stream
stays malformed at the same place. -/
theorem frames_append (hc : Consumes parse) (hs : Stable parse) (hnil : parse [] = .incomplete)
    (xs ys : List σ) :
    frames filler parse (xs ++ ys) = extendFrames filler parse ys (frames filler parse xs) := by
  induction xs using frames_induction filler hc with
  | ok xs f rest hp ih =>
      rw [frames_of_ok hc hp, frames_of_ok hc (ok_append_of_dropWhile hs hnil hp ys), ih]
      rcases frames filler parse rest with ⟨fs, _ | _⟩ <;> rfl
  | incomplete xs hp =>
      rw [frames_of_incomplete hp]
      -- dropping the filler once more makes no difference
      refine frames_congr hc ?_
      by_cases hne : xs.dropWhile filler = []
      · rw [dropWhile_append_of_nil hne, hne, List.nil_append]
      · have hne' : (xs.dropWhile filler).dropWhile filler ≠ [] := by
          rwa [List.dropWhile_idempotent]
        rw [dropWhile_append_of_ne_nil hne, dropWhile_append_of_ne_nil hne',
          List.dropWhile_idempotent]
  | backtrack xs hp =>
      have hne : xs.dropWhile filler ≠ [] := ne_nil_of_parse hnil (by simp [hp])
      have hext : parse ((xs ++ ys).dropWhile filler) = .backtrack := by
        rw [dropWhile_append_of_ne_nil hne]
        exact hs.backtrack hp ys
      rw [frames_of_backtrack hp, frames_of_backtrack hext, dropWhile_append_of_ne_nil hne]
      rfl

/-- **Where a stream is cut that waits for input**, the part in front of the cut waits for input
too, and has the first of its frames. -/
theorem frames_of_prefix (hc : Consumes parse) (hs : Stable parse) (hnil : parse [] = .incomplete)
    {xs ys : List σ} {fs : List φ} {r : List σ} (hxs : xs <+: ys)
    (h : frames filler parse ys = (fs, .waiting r)) :
    ∃ fs' r', frames filler parse xs = (fs', .waiting r') ∧ fs' <+: fs := by
  obtain ⟨zs, rfl⟩ := hxs
  rw [frames_append hc hs hnil] at h
  rcases hcut : frames filler parse xs with ⟨fs', r' | r'⟩
  · rw [hcut, extendFrames] at h
    obtain ⟨rfl, -⟩ := Prod.mk.inj h
    exact ⟨fs', r', rfl, List.prefix_append _ _⟩
  · -- what is malformed stays malformed
    rw [hcut, extendFrames] at h
    cases h

end Stable

end PartialInput
