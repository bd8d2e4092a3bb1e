/-
# Parsers that ask for more only where more can help

A parser over partial input *completes* when every input on which it asks for more has an
extension on which it succeeds.  Together with stability this says that a failure means no
extension can be read (`Parser.backtrack_iff`), and a request that one can
(`Parser.incomplete_iff`).
-/
import AsyncStomp.PartialInput.Stable

namespace PartialInput

universe u v

variable {σ : Type u} {α β : Type v}

namespace Parser

/-- Where `p` asks for more it can be given more, so that it succeeds with a value and a rest that
are `good`. -/
def Completes (p : Parser σ α) (good : α → List σ → Prop) : Prop :=
  ∀ xs, p xs = .incomplete → ∃ ys a rest, p (xs ++ ys) = .ok a rest ∧ good a rest

/-- `p` asks for more here, or succeeds with what is `good`. -/
def GoesWell (p : Parser σ α) (good : α → List σ → Prop) (xs : List σ) : Prop :=
  p xs = .incomplete ∨ ∃ a rest, p xs = .ok a rest ∧ good a rest

lemma Completes.mono {p : Parser σ α} {good good' : α → List σ → Prop} (hp : Completes p good)
    (h : ∀ a rest, good a rest → good' a rest) : Completes p good' := by
  intro xs hxs
  obtain ⟨ys, a, rest, hok, hgood⟩ := hp xs hxs
  exact ⟨ys, a, rest, hok, h a rest hgood⟩

/-! ### The combinators -/

lemma completes_pure (a : α) (good : α → List σ → Prop) : Completes (pure a) good := by
  rintro xs ⟨⟩

lemma completes_bind {p : Parser σ α} {f : α → Parser σ β} {good : β → List σ → Prop}
    (hs : Stable p) (hp : Completes p fun a rest => GoesWell (f a) good rest)
    (hf : ∀ a, Completes (f a) good) : Completes (p >>= f) good := by
  intro xs hxs
  cases hpx : p xs with
  | ok a mid =>
      rw [bind_of_ok hpx] at hxs
      obtain ⟨ys, b, rest, hb, hgood⟩ := hf a mid hxs
      exact ⟨ys, b, rest, by rw [bind_of_ok (hs.ok hpx ys), hb], hgood⟩
  | incomplete =>
      obtain ⟨ys, a, mid, ha, hmid | ⟨b, rest, hb, hgood⟩⟩ := hp xs hpx
      · -- the second parser asks for more in turn
        obtain ⟨zs, b, rest, hb, hgood⟩ := hf a mid hmid
        refine ⟨ys ++ zs, b, rest, ?_, hgood⟩
        rw [← List.append_assoc, bind_of_ok (hs.ok ha zs), hb]
      · exact ⟨ys, b, rest, by rw [bind_of_ok ha, hb], hgood⟩
  | backtrack =>
      rw [bind_of_backtrack hpx] at hxs
      cases hxs

lemma completes_literal [DecidableEq σ] (ts : List σ) :
    Completes (literal ts) fun _ rest => rest = [] := by
  induction ts with
  | nil => rintro xs ⟨⟩
  | cons t ts ih =>
      intro xs hxs
      cases xs with
      | nil =>
          refine ⟨t :: ts, (), [], ?_, rfl⟩
          have hall := literal_append (t :: ts) ([] : List σ)
          rwa [List.append_nil] at hall
      | cons x xs =>
          by_cases hxt : x = t
          · rw [literal, if_pos hxt] at hxs
            obtain ⟨ys, a, rest, hok, hrest⟩ := ih xs hxs
            exact ⟨ys, a, rest, by rw [List.cons_append, literal, if_pos hxt, hok], hrest⟩
          · rw [literal, if_neg hxt] at hxs
            cases hxs

/-- Nothing stops where more is asked for. -/
lemma takeTill_eq_incomplete {stop : σ → Bool} {xs : List σ} (h : takeTill stop xs = .incomplete) :
    ∀ x ∈ xs, stop x = false := by
  induction xs with
  | nil => simp
  | cons x xs ih =>
      by_cases hx : stop x = true
      · rw [takeTill, if_pos hx] at h
        cases h
      · rw [takeTill, if_neg hx] at h
        have hrec : takeTill stop xs = .incomplete := by
          cases hxs : takeTill stop xs <;> simp [hxs, Result.map] at h ⊢
        intro z hz
        rcases List.mem_cons.1 hz with rfl | hz
        · simpa using hx
        · exact ih hrec z hz

lemma completes_takeTill {stop : σ → Bool} {y : σ} (hy : stop y = true) :
    Completes (takeTill stop) fun _ rest => rest = [y] := by
  intro xs hxs
  exact ⟨[y], xs, [y], takeTill_append [] (takeTill_eq_incomplete hxs) hy, rfl⟩

lemma completes_takeTill1 {stop : σ → Bool} {x y : σ} (hx : stop x = false) (hy : stop y = true) :
    Completes (takeTill1 stop) fun _ rest => rest = [y] := by
  intro xs hxs
  have htill : takeTill stop xs = .incomplete := by
    rw [takeTill1] at hxs
    cases h : takeTill stop xs with
    | ok t r => cases t <;> simp [h] at hxs
    | incomplete => rfl
    | backtrack => simp [h] at hxs
  have hstop := takeTill_eq_incomplete htill
  -- one more token in front of the stopping one makes sure that there is any
  refine ⟨[x, y], xs ++ [x], [y], ?_, rfl⟩
  rw [List.append_cons]
  refine takeTill1_append [] (by simp) (fun z hz => ?_) hy
  rcases List.mem_append.1 hz with hz | hz
  · exact hstop z hz
  · rw [List.mem_singleton.1 hz, hx]

lemma completes_take [Inhabited σ] (n : ℕ) :
    Completes (take n : Parser σ (List σ)) fun _ rest => rest = [] := by
  intro xs hxs
  have hlen : (xs ++ List.replicate (n - xs.length) default).length = n := by
    have hlt : xs.length < n := by
      by_contra hle
      rw [take, if_pos (by omega)] at hxs
      cases hxs
    rw [List.length_append, List.length_replicate]
    omega
  have htake := take_append (xs ++ List.replicate (n - xs.length) default) ([] : List σ)
  rw [hlen, List.append_nil] at htake
  exact ⟨_, _, [], htake, rfl⟩

lemma completes_alt {p q : Parser σ α} {good : α → List σ → Prop} (hs : Stable p)
    (hp : Completes p good) (hq : Completes q good) : Completes (alt p q) good := by
  intro xs hxs
  rw [alt] at hxs
  cases hpx : p xs with
  | ok a rest =>
      rw [hpx] at hxs
      cases hxs
  | incomplete =>
      obtain ⟨ys, a, rest, hok, hgood⟩ := hp xs hpx
      exact ⟨ys, a, rest, by rw [alt, hok], hgood⟩
  | backtrack =>
      rw [hpx] at hxs
      obtain ⟨ys, a, rest, hok, hgood⟩ := hq xs hxs
      exact ⟨ys, a, rest, by rw [alt, hs.backtrack hpx ys]; exact hok, hgood⟩

/-- A repetition is ended by what its parser does not take. -/
lemma completes_repeat0 {p : Parser σ α} (hs : Stable p) (hc : Consumes p)
    (hp : Completes p fun _ rest => rest = []) {tail : List σ} (htail : p tail = .backtrack) :
    Completes (repeat0 p) fun _ rest => rest = tail := by
  -- by induction on what is left to read
  have key : ∀ n, ∀ xs : List σ, xs.length < n → repeat0 p xs = .incomplete →
      ∃ ys as, repeat0 p (xs ++ ys) = .ok as tail := by
    intro n
    induction n with
    | zero => intro xs hn; omega
    | succ n ih =>
        intro xs hn hxs
        rw [repeat0_apply] at hxs
        cases hpx : p xs with
        | incomplete =>
            obtain ⟨ys, a, rest, hok, rfl⟩ := hp xs hpx
            have hext := hs.ok hok tail
            rw [List.nil_append, List.append_assoc] at hext
            exact ⟨ys ++ tail, [a],
              repeat0_of_ok hext (hc.length_lt hext) (repeat0_of_backtrack htail)⟩
        | backtrack =>
            rw [hpx] at hxs
            cases hxs
        | ok a mid =>
            have hlt := hc.length_lt hpx
            rw [hpx] at hxs
            simp only [if_pos hlt] at hxs
            have hmid : repeat0 p mid = .incomplete := by
              cases hrec : repeat0 p mid <;> simp [hrec, Result.map] at hxs ⊢
            obtain ⟨ys, as, hok⟩ := ih mid (by omega) hmid
            have hext := hs.ok hpx ys
            exact ⟨ys, a :: as, repeat0_of_ok hext (hc.length_lt hext) hok⟩
  intro xs hxs
  obtain ⟨ys, as, hok⟩ := key _ xs (Nat.lt_succ_self _) hxs
  exact ⟨ys, as, tail, hok, rfl⟩

/-! ### What the outcomes mean -/

section Outcomes

variable {p : Parser σ α} {good : α → List σ → Prop} {xs : List σ}

/-- **A request for more** means that no success is there yet, and one can be reached. -/
theorem incomplete_iff (hs : Stable p) (hp : Completes p good) :
    p xs = .incomplete ↔
      (¬ ∃ a rest, p xs = .ok a rest) ∧ ∃ ys a rest, p (xs ++ ys) = .ok a rest := by
  constructor
  · intro h
    obtain ⟨ys, a, rest, hok, -⟩ := hp xs h
    exact ⟨by simp [h], ys, a, rest, hok⟩
  · rintro ⟨hnot, ys, a, rest, hok⟩
    cases h : p xs with
    | ok b r => exact absurd ⟨b, r, h⟩ hnot
    | incomplete => rfl
    | backtrack =>
        rw [hs.backtrack h ys] at hok
        cases hok

/-- **A failure** means that no success can be reached. -/
theorem backtrack_iff (hs : Stable p) (hp : Completes p good) :
    p xs = .backtrack ↔ ¬ ∃ ys a rest, p (xs ++ ys) = .ok a rest := by
  constructor
  · rintro h ⟨ys, a, rest, hok⟩
    rw [hs.backtrack h ys] at hok
    cases hok
  · intro hnot
    cases h : p xs with
    | ok a rest => exact absurd ⟨[], a, rest, by rw [List.append_nil, h]⟩ hnot
    | incomplete =>
        obtain ⟨ys, a, rest, hok, -⟩ := hp xs h
        exact absurd ⟨ys, a, rest, hok⟩ hnot
    | backtrack => rfl

end Outcomes

end Parser

end PartialInput
