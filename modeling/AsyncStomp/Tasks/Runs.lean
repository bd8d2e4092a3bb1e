/-
# Runs of tasks

Tasks that share a state are modelled by a partial step function: an action names the task
that moves and what its surroundings answer, and is impossible where the step is `none`.
A run is a list of actions.  What every step preserves holds after every run.
-/
import Mathlib.Data.Nat.Notation
import Mathlib.Logic.Relation
import Mathlib.Tactic.Common

namespace Tasks

/-- What polling returns. -/
inductive Poll (α : Type) where
  | pending
  | ready (a : α)
deriving DecidableEq, Repr

variable {σ α : Type}

/-- The state after a list of actions, if all of them are possible. -/
def run (step : σ → α → Option σ) : σ → List α → Option σ
  | s, [] => some s
  | s, a :: as => (step s a).bind fun s' => run step s' as

lemma run_cons (step : σ → α → Option σ) (s : σ) (a : α) (as : List α) :
    run step s (a :: as) = (step s a).bind fun s' => run step s' as := rfl

lemma run_append (step : σ → α → Option σ) (s : σ) (as bs : List α) :
    run step s (as ++ bs) = (run step s as).bind fun s' => run step s' bs := by
  induction as generalizing s with
  | nil => rfl
  | cons a as ih =>
      rw [List.cons_append, run_cons, run_cons, Option.bind_assoc]
      exact Option.bind_congr fun mid _ => ih mid

/-- **Invariants.**  What every step preserves is preserved by every run. -/
theorem run_invariant {step : σ → α → Option σ} {I : σ → Prop}
    (hstep : ∀ s a s', step s a = some s' → I s → I s') {s s' : σ} {as : List α}
    (h : run step s as = some s') (hs : I s) : I s' := by
  induction as generalizing s with
  | nil =>
      cases h
      exact hs
  | cons a as ih =>
      rw [run_cons] at h
      obtain ⟨mid, hmid, hrest⟩ := Option.bind_eq_some_iff.1 h
      exact ih hrest (hstep s a mid hmid hs)

/-- A step function refines a relation, in the states that satisfy `I`, if each of its steps is a
sequence of moves of that relation. -/
def Refines (I : σ → Prop) (step : σ → α → Option σ) (move : σ → σ → Prop) : Prop :=
  ∀ s a s', I s → step s a = some s' → Relation.ReflTransGen move s s'

/-- **Invariants of a refined relation** are invariants of the runs. -/
theorem Refines.run_invariant {I : σ → Prop} {step : σ → α → Option σ} {move : σ → σ → Prop}
    (href : Refines I step move) (hmove : ∀ s s', move s s' → I s → I s') {s s' : σ} {as : List α}
    (h : run step s as = some s') (hs : I s) : I s' := by
  refine Tasks.run_invariant (fun s a s' hstep hI => ?_) h hs
  have hmoves := href s a s' hI hstep
  clear hstep
  induction hmoves with
  | refl => exact hI
  | tail _ hlast ih => exact hmove _ _ hlast ih

/-! ### Conditions on steps -/

/-- A run of a step function that allows less is a run. -/
lemma run_mono {step step' : σ → α → Option σ} (h : ∀ s a s', step s a = some s' →
    step' s a = some s') {s s' : σ} {as : List α} (hrun : run step s as = some s') :
    run step' s as = some s' := by
  induction as generalizing s with
  | nil => exact hrun
  | cons a as ih =>
      rw [run_cons] at hrun ⊢
      obtain ⟨mid, hmid, hrest⟩ := Option.bind_eq_some_iff.1 hrun
      rw [h s a mid hmid]
      exact ih hrest

/-- Every action of a run meets `P`, in the state in which it is taken. -/
def Throughout (step : σ → α → Option σ) (P : σ → α → Prop) : σ → List α → Prop
  | _, [] => True
  | s, a :: as => P s a ∧ ∀ s', step s a = some s' → Throughout step P s' as

/-- **What breaks a property.**  If a step keeps `J` exactly where its action meets `P`, and once
lost `J` does not come back, then `J` holds after a run exactly where all its actions met `P`. -/
theorem run_iff_throughout {step : σ → α → Option σ} {I J : σ → Prop} {P : σ → α → Prop}
    (hI : ∀ s a s', step s a = some s' → I s → I s')
    (hJ : ∀ s a s', I s → step s a = some s' → (J s' ↔ J s ∧ P s a)) {s s' : σ} {as : List α}
    (h : run step s as = some s') (hs : I s) : J s' ↔ J s ∧ Throughout step P s as := by
  induction as generalizing s with
  | nil =>
      cases h
      exact ⟨fun hj => ⟨hj, trivial⟩, And.left⟩
  | cons a as ih =>
      rw [run_cons] at h
      obtain ⟨mid, hmid, hrest⟩ := Option.bind_eq_some_iff.1 h
      rw [ih hrest (hI s a mid hmid hs), hJ s a mid hs hmid, and_assoc, Throughout]
      constructor
      · rintro ⟨hj, hmet, hlater⟩
        refine ⟨hj, hmet, fun s' hs' => ?_⟩
        rw [hmid] at hs'
        cases hs'
        exact hlater
      · rintro ⟨hj, hmet, hlater⟩
        exact ⟨hj, hmet, hlater mid hmid⟩

/-! ### Logs -/

/-- `Q` held of the log and the event whenever an event was recorded. -/
def Always {ε : Type} (Q : List ε → ε → Prop) (log : List ε) : Prop :=
  ∀ l ev, l ++ [ev] <+: log → Q l ev

lemma always_nil {ε : Type} (Q : List ε → ε → Prop) : Always Q [] := by
  intro l ev h
  simp at h

/-- What holds of every event of a log is shown event by event. -/
lemma always_concat {ε : Type} {Q : List ε → ε → Prop} {log : List ε} {ev : ε} :
    Always Q (log ++ [ev]) ↔ Always Q log ∧ Q log ev := by
  constructor
  · intro h
    exact ⟨fun l e hl => h l e (hl.trans (List.prefix_append _ _)), h log ev List.prefix_rfl⟩
  · rintro ⟨hlog, hev⟩ l e hl
    rcases List.prefix_concat_iff.1 hl with heq | hold
    · obtain rfl := List.append_inj_left' heq rfl
      obtain ⟨⟩ := List.append_inj_right' heq rfl
      exact hev
    · exact hlog l e hold

end Tasks
