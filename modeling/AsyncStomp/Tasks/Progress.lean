/-
# Getting on

A state that is bound to be reached: as long as it is not, some action that counts is possible, and
a variant bounds how many of them can be taken, whatever else is done in between.  With tasks that
are scheduled often enough this means that it is reached in the end.
-/
import AsyncStomp.Tasks.Runs

namespace Tasks

variable {σ α : Type}

/-- How many actions of a run count, each in the state in which it is taken. -/
def countIn (step : σ → α → Option σ) (counts : σ → α → Bool) : σ → List α → ℕ
  | _, [] => 0
  | s, a :: as => (counts s a).toNat + ((step s a).map fun s' => countIn step counts s' as).getD 0

lemma countIn_cons {step : σ → α → Option σ} {counts : σ → α → Bool} {s mid : σ} {a : α}
    (h : step s a = some mid) (as : List α) :
    countIn step counts s (a :: as) = (counts s a).toNat + countIn step counts mid as := by
  rw [countIn, h]
  rfl

/-- What it takes for `Q` to be bound to be reached from the states that satisfy `I`. -/
structure Variant (step : σ → α → Option σ) (counts : σ → α → Bool) (I Q : σ → Prop) (μ : σ → ℕ) :
    Prop where
  invariant : ∀ s a s', step s a = some s' → I s → I s'
  /-- What is reached is not lost. -/
  stable : ∀ s a s', step s a = some s' → I s → Q s → Q s'
  /-- An action that counts takes the variant down, and no action takes it up. -/
  decreases : ∀ s a s', step s a = some s' → I s → ¬ Q s → Q s' ∨ μ s' + (counts s a).toNat ≤ μ s
  /-- There is always something left to do. -/
  enabled : ∀ s, I s → ¬ Q s → ∃ a, counts s a = true ∧ (step s a).isSome

namespace Variant

variable {step : σ → α → Option σ} {counts : σ → α → Bool} {I Q : σ → Prop} {μ : σ → ℕ} {s s' : σ}
  {as : List α}

lemma stable_run (v : Variant step counts I Q μ) (h : run step s as = some s') (hI : I s)
    (hQ : Q s) : Q s' := by
  have hstep : ∀ s a s', step s a = some s' → I s ∧ Q s → I s' ∧ Q s' := fun s a s' hs hboth =>
    ⟨v.invariant s a s' hs hboth.1, v.stable s a s' hs hboth.1 hboth.2⟩
  exact (run_invariant hstep h ⟨hI, hQ⟩).2

/-- **The variant bounds what is left to do**: `Q` is reached, or no more actions counted than the
variant went down. -/
theorem count_le (v : Variant step counts I Q μ) (h : run step s as = some s') (hI : I s) :
    Q s' ∨ countIn step counts s as + μ s' ≤ μ s := by
  induction as generalizing s with
  | nil =>
      cases h
      exact Or.inr (Nat.le_of_eq (Nat.zero_add _))
  | cons a as ih =>
      rw [run_cons] at h
      obtain ⟨mid, hmid, hrest⟩ := Option.bind_eq_some_iff.1 h
      have hmidI := v.invariant s a mid hmid hI
      by_cases hQ : Q s
      · exact Or.inl (v.stable_run hrest hmidI (v.stable s a mid hmid hI hQ))
      rcases v.decreases s a mid hmid hI hQ with hreached | hle
      · exact Or.inl (v.stable_run hrest hmidI hreached)
      rcases ih hrest hmidI with hreached | hcount
      · exact Or.inl hreached
      · refine Or.inr ?_
        rw [countIn_cons hmid]
        omega

/-- After more actions that count than the variant allows, `Q` is reached. -/
theorem reached (v : Variant step counts I Q μ) (h : run step s as = some s') (hI : I s)
    (hcount : μ s < countIn step counts s as) : Q s' := by
  rcases v.count_le h hI with hreached | hle
  · exact hreached
  · omega

end Variant

end Tasks
