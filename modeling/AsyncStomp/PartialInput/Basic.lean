/-
# Parsers over partial input

A parser reads a prefix of a list of tokens of which more may still arrive.  It
therefore has three outcomes: it succeeds with a value and the tokens it left, it
asks for more input, or it fails in a way that lets an alternative be tried.  The
combinators are those of streaming parser libraries, with the usual rules: only a
failure is caught by `alt`, `opt` and `repeat0`, a request for more input never is.
-/
import Mathlib.Data.List.DropRight
import Mathlib.Tactic.Common

namespace PartialInput

universe u v w

/-- The outcome of a parser on a partial input. -/
inductive Result (σ : Type u) (α : Type v) where
  /-- A value, and the tokens that were not consumed. -/
  | ok (a : α) (rest : List σ)
  /-- The input ended before the parser could decide. -/
  | incomplete
  /-- The input does not match, and neither does any extension of it. -/
  | backtrack
deriving DecidableEq, Repr

/-- Apply a function to the value of a successful outcome. -/
def Result.map {σ : Type u} {α : Type v} {β : Type w} (f : α → β) : Result σ α → Result σ β
  | .ok a rest => .ok (f a) rest
  | .incomplete => .incomplete
  | .backtrack => .backtrack

@[simp] lemma Result.map_eq_ok {σ : Type u} {α : Type v} {β : Type w} {f : α → β}
    {r : Result σ α} {b : β} {rest : List σ} :
    r.map f = .ok b rest ↔ ∃ a, r = .ok a rest ∧ f a = b := by
  cases r <;> simp [Result.map, and_comm]

@[simp] lemma Result.map_eq_backtrack {σ : Type u} {α : Type v} {β : Type w} {f : α → β}
    {r : Result σ α} : r.map f = .backtrack ↔ r = .backtrack := by
  cases r <;> simp [Result.map]

/-- A parser over tokens `σ`. -/
abbrev Parser (σ : Type u) (α : Type v) : Type (max u v) := List σ → Result σ α

variable {σ : Type u} {α β : Type v}

namespace Parser

/-- Succeed without consuming anything. -/
protected def pure (a : α) : Parser σ α := fun xs => .ok a xs

/-- Run a parser, then the one chosen by its value, on what is left. -/
protected def bind (p : Parser σ α) (f : α → Parser σ β) : Parser σ β := fun xs =>
  match p xs with
  | .ok a rest => f a rest
  | .incomplete => .incomplete
  | .backtrack => .backtrack

instance : Monad (Parser σ) where
  pure := Parser.pure
  bind := Parser.bind

lemma bind_apply (p : Parser σ α) (f : α → Parser σ β) (xs : List σ) :
    (p >>= f) xs = match p xs with
      | .ok a rest => f a rest
      | .incomplete => .incomplete
      | .backtrack => .backtrack := rfl

lemma bind_of_ok {p : Parser σ α} {f : α → Parser σ β} {xs rest : List σ} {a : α}
    (h : p xs = .ok a rest) : (p >>= f) xs = f a rest := by
  rw [bind_apply, h]

lemma bind_of_incomplete {p : Parser σ α} {f : α → Parser σ β} {xs : List σ}
    (h : p xs = .incomplete) : (p >>= f) xs = .incomplete := by
  rw [bind_apply, h]

lemma bind_of_backtrack {p : Parser σ α} {f : α → Parser σ β} {xs : List σ}
    (h : p xs = .backtrack) : (p >>= f) xs = .backtrack := by
  rw [bind_apply, h]

/-- What a successful sequence says about its parts. -/
lemma bind_eq_ok_iff {p : Parser σ α} {f : α → Parser σ β} {xs rest : List σ} {b : β} :
    (p >>= f) xs = .ok b rest ↔ ∃ a mid, p xs = .ok a mid ∧ f a mid = .ok b rest := by
  rw [bind_apply]
  cases h : p xs with
  | ok a mid =>
      constructor
      · intro hf
        exact ⟨a, mid, rfl, hf⟩
      · rintro ⟨a', mid', hp, hf⟩
        cases hp
        exact hf
  | incomplete => simp
  | backtrack => simp

/-- What a failing sequence says about its parts. -/
lemma bind_eq_backtrack_iff {p : Parser σ α} {f : α → Parser σ β} {xs : List σ} :
    (p >>= f) xs = .backtrack ↔
      p xs = .backtrack ∨ ∃ a mid, p xs = .ok a mid ∧ f a mid = .backtrack := by
  rw [bind_apply]
  cases h : p xs with
  | ok a mid =>
      constructor
      · intro hf
        exact Or.inr ⟨a, mid, rfl, hf⟩
      · rintro (hp | ⟨a', mid', hp, hf⟩)
        · cases hp
        · cases hp
          exact hf
  | incomplete => simp
  | backtrack => simp

/-! ### Tokens -/

section Tokens

variable [DecidableEq σ]

/-- Match a fixed sequence of tokens. -/
def literal : List σ → Parser σ Unit
  | [], xs => .ok () xs
  | _ :: _, [] => .incomplete
  | t :: ts, x :: xs => if x = t then literal ts xs else .backtrack

end Tokens

/-- The tokens in front of the first one that satisfies `stop`, which has to be there. -/
def takeTill (stop : σ → Bool) : Parser σ (List σ)
  | [] => .incomplete
  | x :: xs =>
      if stop x then .ok [] (x :: xs) else (takeTill stop xs).map (x :: ·)

/-- As `takeTill`, failing when there is nothing in front of the stopping token. -/
def takeTill1 (stop : σ → Bool) : Parser σ (List σ) := fun xs =>
  match takeTill stop xs with
  | .ok [] _ => .backtrack
  | r => r

/-- Exactly `n` tokens. -/
def take (n : ℕ) : Parser σ (List σ) := fun xs =>
  if n ≤ xs.length then .ok (xs.take n) (xs.drop n) else .incomplete

/-! ### Alternatives and repetition -/

/-- Try `p`, and `q` from the same place where `p` fails. -/
def alt (p q : Parser σ α) : Parser σ α := fun xs =>
  match p xs with
  | .backtrack => q xs
  | r => r

/-- Try `p`, and succeed without consuming anything where it fails. -/
def opt (p : Parser σ α) : Parser σ (Option α) := fun xs =>
  match p xs with
  | .ok a rest => .ok (some a) rest
  | .incomplete => .incomplete
  | .backtrack => .ok none xs

/-- Read the end of the input as the end of the stream: a request for more becomes a failure. -/
def completeErr (p : Parser σ α) : Parser σ α := fun xs =>
  match p xs with
  | .incomplete => .backtrack
  | r => r

/-- At most `fuel` runs of `p`, up to the first that fails. -/
def repeatFuel (p : Parser σ α) : ℕ → Parser σ (List α)
  | 0, _ => .backtrack
  | fuel + 1, xs =>
      match p xs with
      | .incomplete => .incomplete
      | .backtrack => .ok [] xs
      | .ok a rest =>
          -- a parser that consumes nothing would be repeated forever
          if rest.length < xs.length then (repeatFuel p fuel rest).map (a :: ·) else .backtrack

/-- As many runs of `p` as succeed. -/
def repeat0 (p : Parser σ α) : Parser σ (List α) := fun xs => repeatFuel p (xs.length + 1) xs

/-- The amount of fuel does not matter once it exceeds the length of the input. -/
lemma repeatFuel_eq (p : Parser σ α) :
    ∀ (n m : ℕ) (xs : List σ), xs.length < n → xs.length < m →
      repeatFuel p n xs = repeatFuel p m xs := by
  intro n
  induction n with
  | zero => intro m xs hn; omega
  | succ n ih =>
      intro m xs hn hm
      cases m with
      | zero => omega
      | succ m =>
          simp only [repeatFuel]
          cases p xs with
          | incomplete => rfl
          | backtrack => rfl
          | ok a rest =>
              by_cases hlt : rest.length < xs.length
              · simp only [if_pos hlt, ih m rest (by omega) (by omega)]
              · simp only [if_neg hlt]

/-- One round of a repetition. -/
lemma repeat0_apply (p : Parser σ α) (xs : List σ) :
    repeat0 p xs = match p xs with
      | .incomplete => .incomplete
      | .backtrack => .ok [] xs
      | .ok a rest =>
          if rest.length < xs.length then (repeat0 p rest).map (a :: ·) else .backtrack := by
  rw [repeat0, repeatFuel]
  cases p xs with
  | incomplete => rfl
  | backtrack => rfl
  | ok a rest =>
      by_cases hlt : rest.length < xs.length
      · simp only [if_pos hlt]
        rw [repeat0, repeatFuel_eq p xs.length (rest.length + 1) rest hlt (by omega)]
      · simp only [if_neg hlt]

lemma repeat0_of_backtrack {p : Parser σ α} {xs : List σ} (h : p xs = .backtrack) :
    repeat0 p xs = .ok [] xs := by
  rw [repeat0_apply, h]

lemma repeat0_of_ok {p : Parser σ α} {xs mid rest : List σ} {a : α} {as : List α}
    (h : p xs = .ok a mid) (hlt : mid.length < xs.length) (has : repeat0 p mid = .ok as rest) :
    repeat0 p xs = .ok (a :: as) rest := by
  rw [repeat0_apply, h]
  simp only [if_pos hlt, has, Result.map]

/-! ### Reading a known prefix -/

lemma literal_append [DecidableEq σ] (ts ys : List σ) : literal ts (ts ++ ys) = .ok () ys := by
  induction ts with
  | nil => rfl
  | cons t ts ih => simpa [literal] using ih

lemma takeTill_append {stop : σ → Bool} {xs : List σ} {y : σ} (ys : List σ)
    (hxs : ∀ x ∈ xs, stop x = false) (hy : stop y = true) :
    takeTill stop (xs ++ y :: ys) = .ok xs (y :: ys) := by
  induction xs with
  | nil => simp [takeTill, hy]
  | cons x xs ih =>
      have hx : stop x = false := hxs x (by simp)
      have hrest := ih fun z hz => hxs z (by simp [hz])
      simp [takeTill, hx, hrest, Result.map]

lemma takeTill1_append {stop : σ → Bool} {xs : List σ} {y : σ} (ys : List σ) (hne : xs ≠ [])
    (hxs : ∀ x ∈ xs, stop x = false) (hy : stop y = true) :
    takeTill1 stop (xs ++ y :: ys) = .ok xs (y :: ys) := by
  rw [takeTill1, takeTill_append ys hxs hy]
  cases xs with
  | nil => exact absurd rfl hne
  | cons x xs => rfl

lemma takeTill1_stop {stop : σ → Bool} {y : σ} (ys : List σ) (hy : stop y = true) :
    takeTill1 stop (y :: ys) = .backtrack := by
  simp [takeTill1, takeTill, hy]

lemma take_append (xs ys : List σ) : take xs.length (xs ++ ys) = .ok xs ys := by
  simp [take]

/-! ### What a successful parse says about its input -/

lemma literal_eq_ok [DecidableEq σ] {ts xs rest : List σ} {a : Unit}
    (h : literal ts xs = .ok a rest) : xs = ts ++ rest := by
  induction ts generalizing xs with
  | nil =>
      cases h
      rfl
  | cons t ts ih =>
      cases xs with
      | nil => cases h
      | cons x xs =>
          by_cases hxt : x = t
          · rw [literal, if_pos hxt] at h
            rw [ih h, hxt, List.cons_append]
          · rw [literal, if_neg hxt] at h
            cases h

lemma takeTill_eq_ok {stop : σ → Bool} {xs taken rest : List σ}
    (h : takeTill stop xs = .ok taken rest) :
    xs = taken ++ rest ∧ (∀ x ∈ taken, stop x = false) ∧
      ∃ y ys, rest = y :: ys ∧ stop y = true := by
  induction xs generalizing taken with
  | nil => cases h
  | cons x xs ih =>
      by_cases hx : stop x
      · rw [takeTill, if_pos hx] at h
        cases h
        exact ⟨rfl, by simp, x, xs, rfl, hx⟩
      · rw [takeTill, if_neg hx] at h
        obtain ⟨t, hrec, rfl⟩ := Result.map_eq_ok.1 h
        obtain ⟨heq, htaken, hrest⟩ := ih hrec
        refine ⟨by rw [heq, List.cons_append], ?_, hrest⟩
        intro z hz
        rcases List.mem_cons.1 hz with rfl | hz
        · simpa using hx
        · exact htaken z hz

lemma takeTill1_eq_ok {stop : σ → Bool} {xs taken rest : List σ}
    (h : takeTill1 stop xs = .ok taken rest) :
    takeTill stop xs = .ok taken rest ∧ taken ≠ [] := by
  rw [takeTill1] at h
  cases hrec : takeTill stop xs with
  | ok t r =>
      rw [hrec] at h
      cases t with
      | nil => cases h
      | cons y t =>
          cases h
          exact ⟨rfl, by simp⟩
  | incomplete => rw [hrec] at h; cases h
  | backtrack => rw [hrec] at h; cases h

lemma take_eq_ok {n : ℕ} {xs taken rest : List σ} (h : take n xs = .ok taken rest) :
    xs = taken ++ rest ∧ taken.length = n := by
  by_cases hn : n ≤ xs.length
  · rw [take, if_pos hn] at h
    cases h
    exact ⟨(List.take_append_drop n xs).symm, by simp [hn]⟩
  · rw [take, if_neg hn] at h
    cases h

lemma alt_eq_ok {p q : Parser σ α} {xs rest : List σ} {a : α} (h : alt p q xs = .ok a rest) :
    p xs = .ok a rest ∨ q xs = .ok a rest := by
  rw [alt] at h
  cases hp : p xs with
  | ok b r => rw [hp] at h; exact Or.inl h
  | incomplete => rw [hp] at h; cases h
  | backtrack => rw [hp] at h; exact Or.inr h

end Parser

end PartialInput
