/-
# Parsers that do not change their mind

A parser over partial input is *stable* when more input changes its outcome only
where it asked for more: a success keeps its value and its end, a failure stays a
failure.  Every combinator preserves stability except `completeErr`, which reads
the end of the input as the end of the stream.  The second notion is that of a
parser that leaves a suffix of its input, which is what bounds the number of times
it can be run.
-/
import AsyncStomp.PartialInput.Basic

namespace PartialInput

universe u v

variable {σ : Type u} {α β : Type v}

namespace Parser

/-- More input changes the outcome of `p` only where `p` asked for more. -/
structure Stable (p : Parser σ α) : Prop where
  ok : ∀ {xs rest : List σ} {a : α}, p xs = .ok a rest →
    ∀ ys, p (xs ++ ys) = .ok a (rest ++ ys)
  backtrack : ∀ {xs : List σ}, p xs = .backtrack → ∀ ys, p (xs ++ ys) = .backtrack

/-- What `p` leaves is a suffix of its input. -/
structure LeavesSuffix (p : Parser σ α) : Prop where
  split : ∀ {xs rest : List σ} {a : α}, p xs = .ok a rest → ∃ used, xs = used ++ rest

/-- What `p` leaves is a proper suffix of its input. -/
structure Consumes (p : Parser σ α) : Prop where
  split : ∀ {xs rest : List σ} {a : α}, p xs = .ok a rest →
    ∃ used, used ≠ [] ∧ xs = used ++ rest

/-- What `p` consumed it would also have read on its own. -/
structure Exact (p : Parser σ α) : Prop where
  alone : ∀ {used rest : List σ} {a : α}, p (used ++ rest) = .ok a rest → p used = .ok a []

lemma Consumes.leavesSuffix {p : Parser σ α} (hp : Consumes p) : LeavesSuffix p := by
  constructor
  intro xs rest a h
  obtain ⟨used, -, hxs⟩ := hp.split h
  exact ⟨used, hxs⟩

/-- Where a stable, exact parser asked for more, it later takes more than was there. -/
lemma Exact.length_lt {p : Parser σ α} (hx : Exact p) (hs : Stable p) (hl : LeavesSuffix p)
    {xs ys rest : List σ} {a : α} (hinc : p xs = .incomplete) (h : p (xs ++ ys) = .ok a rest) :
    xs.length + rest.length < (xs ++ ys).length := by
  obtain ⟨used, hsplit⟩ := hl.split h
  by_contra hle
  have hlen := congrArg List.length hsplit
  simp only [List.length_append] at hle hlen
  -- otherwise the tokens consumed were all there, and would have been enough
  have hpre : used <+: xs :=
    List.prefix_of_prefix_length_le ⟨rest, hsplit.symm⟩ (List.prefix_append xs ys) (by omega)
  obtain ⟨back, hback⟩ := hpre
  rw [hsplit] at h
  have hok := hs.ok (hx.alone h) back
  rw [hback, hinc] at hok
  cases hok

lemma Consumes.length_lt {p : Parser σ α} (hp : Consumes p) {xs rest : List σ} {a : α}
    (h : p xs = .ok a rest) : rest.length < xs.length := by
  obtain ⟨used, hne, rfl⟩ := hp.split h
  have := List.length_pos_iff.2 hne
  rw [List.length_append]
  omega

/-! ### Stability of the combinators -/

lemma stable_pure (a : α) : Stable (pure a : Parser σ α) where
  ok h ys := by cases h; rfl
  backtrack h := by cases h

lemma stable_bind {p : Parser σ α} {f : α → Parser σ β} (hp : Stable p)
    (hf : ∀ a, Stable (f a)) : Stable (p >>= f) where
  ok h ys := by
    obtain ⟨a, mid, hpa, hfa⟩ := bind_eq_ok_iff.1 h
    exact bind_eq_ok_iff.2 ⟨a, mid ++ ys, hp.ok hpa ys, (hf a).ok hfa ys⟩
  backtrack h ys := by
    rcases bind_eq_backtrack_iff.1 h with hpa | ⟨a, mid, hpa, hfa⟩
    · exact bind_eq_backtrack_iff.2 (Or.inl (hp.backtrack hpa ys))
    · exact bind_eq_backtrack_iff.2
        (Or.inr ⟨a, mid ++ ys, hp.ok hpa ys, (hf a).backtrack hfa ys⟩)

lemma stable_literal [DecidableEq σ] (ts : List σ) : Stable (literal ts) := by
  constructor
  · intro xs rest a h ys
    rw [literal_eq_ok h, List.append_assoc]
    exact literal_append ts (rest ++ ys)
  · intro xs h ys
    induction ts generalizing xs with
    | nil => cases h
    | cons t ts ih =>
        cases xs with
        | nil => cases h
        | cons x xs =>
            by_cases hxt : x = t
            · rw [literal, if_pos hxt] at h
              rw [List.cons_append, literal, if_pos hxt, ih h]
            · rw [List.cons_append, literal, if_neg hxt]

lemma takeTill_ne_backtrack (stop : σ → Bool) (xs : List σ) : takeTill stop xs ≠ .backtrack := by
  induction xs with
  | nil => simp [takeTill]
  | cons x xs ih =>
      rw [takeTill]
      by_cases hx : stop x
      · simp [hx]
      · rwa [if_neg hx, ne_eq, Result.map_eq_backtrack]

lemma stable_takeTill (stop : σ → Bool) : Stable (takeTill stop) where
  ok h ys := by
    obtain ⟨hxs, htaken, y, rest, rfl, hy⟩ := takeTill_eq_ok h
    rw [hxs, List.append_assoc, List.cons_append]
    exact takeTill_append _ htaken hy
  backtrack h := absurd h (takeTill_ne_backtrack stop _)

lemma stable_takeTill1 (stop : σ → Bool) : Stable (takeTill1 stop) := by
  constructor
  · intro xs rest taken h ys
    obtain ⟨htill, hne⟩ := takeTill1_eq_ok h
    rw [takeTill1, (stable_takeTill stop).ok htill ys]
    cases taken with
    | nil => exact absurd rfl hne
    | cons x taken => rfl
  · intro xs h ys
    rw [takeTill1] at h
    cases htill : takeTill stop xs with
    | ok t r =>
        rw [htill] at h
        cases t with
        | nil => rw [takeTill1, (stable_takeTill stop).ok htill ys]
        | cons x t => cases h
    | incomplete => rw [htill] at h; cases h
    | backtrack => exact absurd htill (takeTill_ne_backtrack stop xs)

lemma stable_take (n : ℕ) : Stable (take n : Parser σ (List σ)) where
  ok h ys := by
    obtain ⟨rfl, rfl⟩ := take_eq_ok h
    rw [List.append_assoc]
    exact take_append _ _
  backtrack {xs} h := by
    rw [take] at h
    split at h <;> cases h

lemma stable_alt {p q : Parser σ α} (hp : Stable p) (hq : Stable q) : Stable (alt p q) := by
  constructor
  · intro xs rest a h ys
    rw [alt] at h
    cases hpx : p xs with
    | ok b r =>
        rw [hpx] at h
        cases h
        rw [alt, hp.ok hpx ys]
    | incomplete => rw [hpx] at h; cases h
    | backtrack =>
        rw [hpx] at h
        rw [alt, hp.backtrack hpx ys]
        exact hq.ok h ys
  · intro xs h ys
    rw [alt] at h
    cases hpx : p xs with
    | ok b r => rw [hpx] at h; cases h
    | incomplete => rw [hpx] at h; cases h
    | backtrack =>
        rw [hpx] at h
        rw [alt, hp.backtrack hpx ys]
        exact hq.backtrack h ys

lemma stable_repeat0 {p : Parser σ α} (hp : Stable p) : Stable (repeat0 p) := by
  -- the rounds of a repetition, by induction on what is left to read
  have key : ∀ (n : ℕ) (xs : List σ), xs.length < n →
      (∀ as rest, repeat0 p xs = .ok as rest → ∀ ys, repeat0 p (xs ++ ys) = .ok as (rest ++ ys)) ∧
      (repeat0 p xs = .backtrack → ∀ ys, repeat0 p (xs ++ ys) = .backtrack) := by
    intro n
    induction n with
    | zero => intro xs hn; omega
    | succ n ih =>
        intro xs hn
        rw [repeat0_apply]
        cases hpx : p xs with
        | incomplete => simp
        | backtrack =>
            refine ⟨?_, by simp⟩
            intro as rest h ys
            cases h
            exact repeat0_of_backtrack (hp.backtrack hpx ys)
        | ok a mid =>
            by_cases hlt : mid.length < xs.length
            · obtain ⟨ihok, ihbt⟩ := ih mid (by omega)
              have hround : ∀ ys, repeat0 p (xs ++ ys) = (repeat0 p (mid ++ ys)).map (a :: ·) := by
                intro ys
                rw [repeat0_apply, hp.ok hpx ys]
                simp [hlt]
              simp only [if_pos hlt]
              constructor
              · intro as rest h ys
                obtain ⟨bs, hrec, rfl⟩ := Result.map_eq_ok.1 h
                rw [hround, ihok _ _ hrec, Result.map]
              · intro h ys
                rw [hround, ihbt (Result.map_eq_backtrack.1 h), Result.map]
            · simp only [if_neg hlt]
              refine ⟨by simp, ?_⟩
              intro _ ys
              rw [repeat0_apply, hp.ok hpx ys]
              simp [hlt]
  exact ⟨fun h ys => (key _ _ (Nat.lt_succ_self _)).1 _ _ h ys,
    fun h ys => (key _ _ (Nat.lt_succ_self _)).2 h ys⟩

end Parser

end PartialInput
