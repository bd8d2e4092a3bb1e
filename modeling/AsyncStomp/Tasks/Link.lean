/-
# Ordered links

What a connection is for, without tasks, buffers and bytes: what goes in on one side comes out on
the other, in order, each thing once and nothing else.  A link may fail to deliver, at any time
and for good, but never delivers out of order.
-/
import Mathlib.Data.List.Infix
import Mathlib.Logic.Relation
import Mathlib.Tactic.Common

namespace Tasks

open Relation

universe u

/-- An ordered link. -/
structure Link (φ : Type u) where
  /-- What has gone in. -/
  accepted : List φ
  /-- What has come out. -/
  delivered : List φ

namespace Link

variable {φ : Type u}

def new (φ : Type u) : Link φ := ⟨[], []⟩

/-- What a link does. -/
inductive Move : Link φ → Link φ → Prop
  | accept (l : Link φ) (f : φ) : Move l ⟨l.accepted ++ [f], l.delivered⟩
  /-- The next thing comes out. -/
  | deliver {l : Link φ} {f : φ} (hnext : l.delivered ++ [f] <+: l.accepted) :
      Move l ⟨l.accepted, l.delivered ++ [f]⟩

/-- What has come out is the beginning of what has gone in. -/
def Ordered (l : Link φ) : Prop := l.delivered <+: l.accepted

variable {l l' : Link φ}

lemma Ordered.preserve (h : l.Ordered) (hm : Move l l') : l'.Ordered := by
  cases hm with
  | accept f => exact h.trans (List.prefix_append _ _)
  | deliver hnext => exact hnext

/-- Several things go in. -/
lemma moves_accept (l : Link φ) (fs : List φ) :
    ReflTransGen Move l ⟨l.accepted ++ fs, l.delivered⟩ := by
  induction fs using List.reverseRecOn with
  | nil => rw [List.append_nil]
  | append_singleton fs f ih =>
      rw [← List.append_assoc]
      exact ih.tail (.accept _ f)

/-- Several things come out. -/
lemma moves_deliver {fs : List φ} (h : l.delivered ++ fs <+: l.accepted) :
    ReflTransGen Move l ⟨l.accepted, l.delivered ++ fs⟩ := by
  induction fs using List.reverseRecOn with
  | nil => rw [List.append_nil]
  | append_singleton fs f ih =>
      rw [← List.append_assoc] at h ⊢
      exact (ih ((List.prefix_append _ _).trans h)).tail (.deliver h)

/-- **What a link can come to**: more has gone in, more has come out, and what has come out is still
the beginning of what has gone in. -/
theorem moves_iff (h : l.Ordered) : ReflTransGen Move l l' ↔
    l.accepted <+: l'.accepted ∧ l.delivered <+: l'.delivered ∧ l'.Ordered := by
  constructor
  · intro hmoves
    induction hmoves with
    | refl => exact ⟨List.prefix_rfl, List.prefix_rfl, h⟩
    | tail _ hlast ih =>
        obtain ⟨haccepted, hdelivered, hordered⟩ := ih
        refine ⟨?_, ?_, hordered.preserve hlast⟩
        · cases hlast with
          | accept f => exact haccepted.trans (List.prefix_append _ _)
          | deliver _ => exact haccepted
        · cases hlast with
          | accept f => exact hdelivered
          | deliver _ => exact hdelivered.trans (List.prefix_append _ _)
  · rcases l' with ⟨accepted, delivered⟩
    rintro ⟨⟨ins, rfl⟩, ⟨outs, rfl⟩, hordered⟩
    -- everything goes in before anything comes out
    have hdeliver : ReflTransGen Move ⟨l.accepted ++ ins, l.delivered⟩ _ := moves_deliver hordered
    exact (moves_accept l ins).trans hdeliver

end Link

end Tasks
