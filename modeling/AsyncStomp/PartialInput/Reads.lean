/-
# Decoding a stream read by read

A decoder that sits on a socket keeps a buffer.  Every read appends to it, then the
frames at its beginning are taken off and converted, until no whole frame is left
or something goes wrong: a frame does not convert, the buffer is malformed, or the
unfinished frame in it has grown past a limit.

`Policy.reads` runs that over a list of reads and `Policy.settle` says what it
leaves behind when the whole stream is one read.  The results relate the two: the
reads stop at the first read boundary at which the stream so far does not settle
(`Policy.reads_cases`), and as long as no frame exceeds the limit the outcome is that
of a single read (`Policy.reads_eq_settle`).
-/
import AsyncStomp.PartialInput.Framing

namespace PartialInput

universe u v w

open PartialInput.Parser

/-- What reading has come to: the items decoded, and the buffer or the error it ended in. -/
structure Run (σ : Type u) (β : Type v) (ε : Type w) where
  items : List β
  outcome : Except ε (List σ)
deriving DecidableEq

variable {σ : Type u} {φ β : Type v} {ε : Type w}

/-- The run that decoded `bs` before it. -/
def Run.after (bs : List β) (r : Run σ β ε) : Run σ β ε := ⟨bs ++ r.items, r.outcome⟩

@[simp] lemma Run.items_after (bs : List β) (r : Run σ β ε) :
    (r.after bs).items = bs ++ r.items := rfl

@[simp] lemma Run.outcome_after (bs : List β) (r : Run σ β ε) :
    (r.after bs).outcome = r.outcome := rfl

@[simp] lemma Run.after_nil (r : Run σ β ε) : r.after [] = r := rfl

lemma Run.after_after (bs cs : List β) (r : Run σ β ε) :
    (r.after cs).after bs = r.after (bs ++ cs) := by
  simp [Run.after, List.append_assoc]

/-- How a decoder treats frames: how it converts them, how long an unfinished one may
grow, and the errors of the two ways in which a buffer can be refused. -/
structure Policy (φ : Type v) (β : Type v) (ε : Type w) where
  convert : φ → Except ε β
  limit : ℕ
  overflow : ε
  malformed : ε

namespace Policy

variable (π : Policy φ β ε)

/-- Convert frames up to the first that fails, then look at the tail behind them. -/
def settle : List (φ × ℕ) → Tail σ → Run σ β ε
  | [], .waiting r => ⟨[], if π.limit < r.length then .error π.overflow else .ok r⟩
  | [], .broken _ => ⟨[], .error π.malformed⟩
  | (f, _) :: fs, t =>
      match π.convert f with
      | .ok b => (settle fs t).after [b]
      | .error e => ⟨[], .error e⟩

/-- The lengths of the frames that are converted before the first that fails. -/
def spans : List (φ × ℕ) → List ℕ
  | [] => []
  | (f, n) :: fs =>
      match π.convert f with
      | .ok _ => n :: spans fs
      | .error _ => []

variable (filler : σ → Bool) (parse : Parser σ φ)

/-- What a decoder makes of a stream that is there at once. -/
def settleStream (xs : List σ) : Run σ β ε :=
  π.settle (frames filler (spanned parse) xs).1 (frames filler (spanned parse) xs).2

/-- What a decoder makes of a stream that arrives in several reads. -/
def reads : List σ → List (List σ) → Run σ β ε
  | buf, [] => ⟨[], .ok buf⟩
  | buf, c :: cs =>
      match (π.settleStream filler parse (buf ++ c)).outcome with
      | .ok buf' => (reads buf' cs).after (π.settleStream filler parse (buf ++ c)).items
      | .error _ => π.settleStream filler parse (buf ++ c)

variable {π filler parse}

/-! ### Settling -/

lemma settle_cons_ok {f : φ} {n : ℕ} {b : β} (h : π.convert f = .ok b) (fs : List (φ × ℕ))
    (t : Tail σ) : π.settle ((f, n) :: fs) t = (π.settle fs t).after [b] := by
  rw [settle, h]

lemma settle_cons_error {f : φ} {n : ℕ} {e : ε} (h : π.convert f = .error e)
    (fs : List (φ × ℕ)) (t : Tail σ) : π.settle ((f, n) :: fs) t = ⟨[], .error e⟩ := by
  rw [settle, h]

/-- Induction over the frames of a stream up to the first that does not convert. -/
lemma settle_induction (π : Policy φ β ε) {motive : List (φ × ℕ) → Prop} (nil : motive [])
    (ok : ∀ f n b fs, π.convert f = .ok b → motive fs → motive ((f, n) :: fs))
    (error : ∀ f n e fs, π.convert f = .error e → motive ((f, n) :: fs))
    (fs : List (φ × ℕ)) : motive fs := by
  induction fs with
  | nil => exact nil
  | cons f fs ih =>
      cases hf : π.convert f.1 with
      | ok b => exact ok f.1 f.2 b fs hf ih
      | error e => exact error f.1 f.2 e fs hf

/-- Frames settle one after the other: the later ones matter only when the earlier ones
all convert. -/
lemma settle_append (fs gs : List (φ × ℕ)) (t t' : Tail σ) {r : List σ}
    (h : (π.settle fs t).outcome = .ok r) :
    π.settle (fs ++ gs) t' = (π.settle gs t').after (π.settle fs t).items := by
  induction fs using settle_induction π with
  | nil =>
      have hitems : (π.settle [] t).items = [] := by cases t <;> rfl
      rw [hitems, List.nil_append, Run.after_nil]
  | ok f n b fs hf ih =>
      rw [settle_cons_ok hf, Run.outcome_after] at h
      rw [List.cons_append, settle_cons_ok hf, settle_cons_ok hf, ih h, Run.after_after,
        Run.items_after]
  | error f n e fs hf =>
      rw [settle_cons_error hf] at h
      cases h

/-- A buffer that settles is waiting for input, within the limit. -/
lemma settle_ok_tail {fs : List (φ × ℕ)} {t : Tail σ} {r : List σ}
    (h : (π.settle fs t).outcome = .ok r) : t = .waiting r ∧ r.length ≤ π.limit := by
  induction fs using settle_induction π with
  | nil =>
      cases t with
      | waiting r' =>
          by_cases hlt : π.limit < r'.length
          · simp [settle, hlt] at h
          · simp only [settle, if_neg hlt, Except.ok.injEq] at h
            subst h
            exact ⟨rfl, by omega⟩
      | broken r' => simp [settle] at h
  | ok f n b fs hf ih =>
      rw [settle_cons_ok hf, Run.outcome_after] at h
      exact ih h
  | error f n e fs hf =>
      rw [settle_cons_error hf] at h
      cases h

/-- Further frames only add items behind those that are there. -/
lemma settle_items_prefix (fs gs : List (φ × ℕ)) (t t' : Tail σ) :
    (π.settle fs t).items <+: (π.settle (fs ++ gs) t').items := by
  induction fs using settle_induction π with
  | nil =>
      have hitems : (π.settle [] t).items = [] := by cases t <;> rfl
      rw [hitems]
      exact List.nil_prefix
  | ok f n b fs hf ih =>
      rw [List.cons_append, settle_cons_ok hf, settle_cons_ok hf]
      simpa using ih
  | error f n e fs hf =>
      have hsame : π.settle ((f, n) :: fs ++ gs) t' = π.settle ((f, n) :: fs) t := by
        rw [List.cons_append, settle_cons_error hf, settle_cons_error hf]
      exact hsame ▸ List.prefix_rfl

lemma settle_broken (fs : List (φ × ℕ)) (r r' : List σ) :
    π.settle fs (.broken r) = π.settle fs (.broken r') := by
  induction fs with
  | nil => rfl
  | cons f fs ih =>
      obtain ⟨f, n⟩ := f
      rw [settle, settle, ih]

/-- The two ways in which a waiting stream does not settle: a frame does not convert, which no
later input mends, or the unfinished frame has outgrown the limit. -/
lemma settle_waiting_error {fs : List (φ × ℕ)} {r : List σ} {e : ε}
    (h : (π.settle fs (.waiting r)).outcome = .error e) :
    (∀ gs (t : Tail σ), π.settle (fs ++ gs) t = π.settle fs (.waiting r)) ∨
      (π.limit < r.length ∧ ∀ gs, π.spans (fs ++ gs) = π.spans fs ++ π.spans gs ∧
        ∀ t : Tail σ, π.settle (fs ++ gs) t =
          (π.settle gs t).after (π.settle fs (.waiting r)).items) := by
  induction fs using settle_induction π with
  | nil =>
      by_cases hlt : π.limit < r.length
      · exact Or.inr ⟨hlt, fun gs => ⟨rfl, fun t => rfl⟩⟩
      · simp [settle, hlt] at h
  | ok f n b fs hf ih =>
      rw [settle_cons_ok hf, Run.outcome_after] at h
      rcases ih h with hfail | ⟨hlt, hover⟩
      · refine Or.inl fun gs t => ?_
        rw [List.cons_append, settle_cons_ok hf, settle_cons_ok hf, hfail gs t]
      · refine Or.inr ⟨hlt, fun gs => ⟨?_, fun t => ?_⟩⟩
        · simp [spans, hf, (hover gs).1]
        · rw [List.cons_append, settle_cons_ok hf, settle_cons_ok hf, (hover gs).2 t,
            Run.after_after, Run.items_after]
  | error f n e' fs hf =>
      refine Or.inl fun gs t => ?_
      rw [List.cons_append, settle_cons_error hf, settle_cons_error hf]

/-! ### Boundaries -/

section Framed

variable (hs : Stable parse) (hc : Consumes parse) (hnil : parse [] = .incomplete)

include hs hc hnil

lemma frames_spanned_append (xs ys : List σ) :
    frames filler (spanned parse) (xs ++ ys) =
      extendFrames filler (spanned parse) ys (frames filler (spanned parse) xs) :=
  frames_append (consumes_spanned hc) (stable_spanned hs) (spanned_eq_incomplete.2 hnil) xs ys

/-- A stream that is waiting continues with its buffer. -/
lemma settleStream_append {xs buf : List σ}
    (h : (π.settleStream filler parse xs).outcome = .ok buf) (ys : List σ) :
    π.settleStream filler parse (xs ++ ys) =
      (π.settleStream filler parse (buf ++ ys)).after (π.settleStream filler parse xs).items := by
  obtain ⟨htail, -⟩ := settle_ok_tail h
  have hframes : frames filler (spanned parse) xs = (_, .waiting buf) := Prod.ext rfl htail
  rw [settleStream, frames_spanned_append hs hc hnil, hframes]
  exact settle_append _ _ _ _ h

/-- The items of a stream are a prefix of those of any longer stream. -/
lemma settleStream_items_prefix (xs ys : List σ) :
    (π.settleStream filler parse xs).items <+:
      (π.settleStream filler parse (xs ++ ys)).items := by
  rw [settleStream, settleStream, frames_spanned_append hs hc hnil]
  rcases frames filler (spanned parse) xs with ⟨fs, r | r⟩
  · exact settle_items_prefix _ _ _ _
  · have hprefix := settle_items_prefix (π := π) fs [] (.broken r) (.broken (r ++ ys))
    rwa [List.append_nil] at hprefix

/-- **A run over several reads is that of a stream that is there at once**, either the whole
stream, when it settles at every read boundary, or what has arrived at the first boundary at which
it does not. -/
theorem reads_cases (cs : List (List σ)) :
    ∀ xs buf, (π.settleStream filler parse xs).outcome = .ok buf →
      (∃ pre, pre <+: cs ∧
        (π.reads filler parse buf cs).after (π.settleStream filler parse xs).items =
          π.settleStream filler parse (xs ++ pre.flatten) ∧
        (∀ q, q <+: cs → q.length < pre.length →
          ∃ b, (π.settleStream filler parse (xs ++ q.flatten)).outcome = .ok b) ∧
        ((∃ e, (π.settleStream filler parse (xs ++ pre.flatten)).outcome = .error e) ∨
          pre = cs ∧ ∃ b, (π.settleStream filler parse (xs ++ pre.flatten)).outcome = .ok b)) := by
  induction cs with
  | nil =>
      intro xs buf h
      refine ⟨[], List.prefix_rfl, ?_, by simp, Or.inr ⟨rfl, buf, by simpa using h⟩⟩
      have hitems : (π.settleStream filler parse xs).items ++ [] =
          (π.settleStream filler parse xs).items := List.append_nil _
      rw [reads, Run.after, hitems, ← h]
      simp
  | cons c cs ih =>
      intro xs buf h
      have hstep := settleStream_append hs hc hnil h c
      cases hc' : (π.settleStream filler parse (buf ++ c)).outcome with
      | ok buf' =>
          -- the first read settles, and the rest is what follows `xs ++ c`
          have hok : (π.settleStream filler parse (xs ++ c)).outcome = .ok buf' := by
            rw [hstep, Run.outcome_after, hc']
          obtain ⟨pre, hpre, hrun, hclean, hend⟩ := ih (xs ++ c) buf' hok
          refine ⟨c :: pre, by simpa using hpre, ?_, ?_, ?_⟩
          · rw [reads, hc', Run.after_after, List.flatten_cons, ← List.append_assoc, ← hrun, hstep,
              Run.items_after]
          · intro q hq hlen
            cases q with
            | nil => exact ⟨buf, by simpa using h⟩
            | cons d q =>
                obtain ⟨rfl, hq'⟩ := List.cons_prefix_cons.1 hq
                rw [List.flatten_cons, ← List.append_assoc]
                exact hclean q hq' (by simpa using hlen)
          · rcases hend with ⟨e, he⟩ | ⟨rfl, b, hb⟩
            · exact Or.inl ⟨e, by rwa [List.flatten_cons, ← List.append_assoc]⟩
            · exact Or.inr ⟨rfl, b, by rwa [List.flatten_cons, ← List.append_assoc]⟩
      | error e =>
          -- the first read does not settle, and no other read is made
          refine ⟨[c], by simp, ?_, ?_, Or.inl ⟨e, ?_⟩⟩
          · rw [reads, hc']
            simpa using hstep.symm
          · intro q hq hlen
            have hq0 : q = [] := by
              rw [List.length_singleton, Nat.lt_one_iff, List.length_eq_zero_iff] at hlen
              exact hlen
            exact ⟨buf, by simpa [hq0] using h⟩
          · have hflat : xs ++ [c].flatten = xs ++ c := by simp
            rw [hflat, hstep, Run.outcome_after, hc']

omit hnil in
/-- An unfinished frame over the limit is refused now and, when no frame that converts exceeds the
limit, refused for good. -/
lemma settleStream_overflow (hx : Exact parse) {r : List σ} (hr : r.dropWhile filler = r)
    (hinc : parse r = .incomplete) (hlt : π.limit < r.length) (ys : List σ)
    (hspans : ∀ n ∈ π.spans (frames filler (spanned parse) (r ++ ys)).1, n ≤ π.limit) :
    ∃ e, π.settleStream filler parse (r ++ ys) = ⟨[], .error e⟩ := by
  have hne : r.dropWhile filler ≠ [] := by
    rw [hr]
    rintro rfl
    simp at hlt
  have hdrop : (r ++ ys).dropWhile filler = r ++ ys := by
    rw [dropWhile_append_of_ne_nil hne, hr]
  cases hp : spanned parse ((r ++ ys).dropWhile filler) with
  | ok f rest =>
      obtain ⟨f, n⟩ := f
      have hfr := frames_of_ok (consumes_spanned hc) hp
      rw [hdrop] at hp
      obtain ⟨hok, rfl⟩ := spanned_eq_ok.1 hp
      have hlen := hx.length_lt hs hc.leavesSuffix hinc hok
      rw [hfr] at hspans
      rw [settleStream, hfr]
      cases hf : π.convert f with
      | ok b =>
          -- the frame reaches beyond `r`, which was over the limit already
          have hn := hspans ((r ++ ys).length - rest.length) (by simp [spans, hf])
          omega
      | error e => exact ⟨e, settle_cons_error hf _ _⟩
  | incomplete =>
      have hover : π.limit < (r ++ ys).length := by
        rw [List.length_append]
        omega
      refine ⟨π.overflow, ?_⟩
      rw [settleStream, frames_of_incomplete hp, hdrop, settle, if_pos hover]
  | backtrack =>
      refine ⟨π.malformed, ?_⟩
      rw [settleStream, frames_of_backtrack hp, settle]

/-- A stream that does not settle never will, and decodes to the same items, as long as no frame
that converts exceeds the limit. -/
lemma settleStream_error_append (hx : Exact parse) {xs : List σ} {e : ε}
    (h : (π.settleStream filler parse xs).outcome = .error e) (ys : List σ)
    (hspans : ∀ n ∈ π.spans (frames filler (spanned parse) (xs ++ ys)).1, n ≤ π.limit) :
    ∃ e', π.settleStream filler parse (xs ++ ys) =
      ⟨(π.settleStream filler parse xs).items, .error e'⟩ := by
  have happ : frames filler (spanned parse) (xs ++ ys) = _ := frames_spanned_append hs hc hnil xs ys
  cases htail : (frames filler (spanned parse) xs).2 with
  | waiting r =>
      have hframes : frames filler (spanned parse) xs = (_, .waiting r) := Prod.ext rfl htail
      rw [settleStream, htail] at h
      rw [hframes, extendFrames] at happ
      rw [settleStream, settleStream, happ, htail]
      -- an item has failed, or what is left is over the limit
      rcases settle_waiting_error h with hfail | ⟨hlt, hover⟩
      · exact ⟨e, by rw [hfail, ← h]⟩
      · obtain ⟨hdrop, hinc⟩ := frames_waiting_spec (consumes_spanned hc) xs _ r hframes
        obtain ⟨hspans', hsettle'⟩ := hover (frames filler (spanned parse) (r ++ ys)).1
        rw [happ, hspans'] at hspans
        obtain ⟨e', he'⟩ := settleStream_overflow hs hc hx hdrop
          (spanned_eq_incomplete.1 hinc) hlt ys fun n hn => hspans n (by simp [hn])
        rw [settleStream] at he'
        exact ⟨e', by rw [hsettle', he']; simp [Run.after]⟩
  | broken r =>
      have hframes : frames filler (spanned parse) xs = (_, .broken r) := Prod.ext rfl htail
      have hsettle : π.settleStream filler parse (xs ++ ys) = π.settleStream filler parse xs := by
        rw [settleStream, happ, hframes, settleStream, htail]
        exact settle_broken _ _ _
      exact ⟨e, by rw [hsettle, ← h]⟩

/-- **Reads do not matter.**  As long as no frame that converts exceeds the limit, decoding a
stream read by read ends like decoding it at once: with the same items, and either in the same
buffer or both in an error. -/
theorem reads_eq_settle (hx : Exact parse) (cs : List (List σ))
    (hspans : ∀ n ∈ π.spans (frames filler (spanned parse) cs.flatten).1, n ≤ π.limit) :
    π.reads filler parse [] cs = π.settleStream filler parse cs.flatten ∨
      ∃ items e e', π.reads filler parse [] cs = ⟨items, .error e⟩ ∧
        π.settleStream filler parse cs.flatten = ⟨items, .error e'⟩ := by
  have hempty : π.settleStream filler parse [] = ⟨[], .ok []⟩ := by
    rw [settleStream, frames_of_incomplete (spanned_eq_incomplete.2 hnil)]
    rfl
  have hstart : (π.settleStream filler parse []).outcome = .ok [] := by rw [hempty]
  obtain ⟨pre, ⟨post, rfl⟩, hrun, -, hend⟩ := reads_cases hs hc hnil cs [] [] hstart
  rw [hempty, Run.after_nil, List.nil_append] at hrun
  rw [List.nil_append] at hend
  rcases hend with ⟨e, he⟩ | ⟨hpost, -⟩
  · rw [List.flatten_append] at hspans ⊢
    obtain ⟨e', he'⟩ := settleStream_error_append hs hc hnil hx he post.flatten hspans
    exact Or.inr ⟨_, e, e', by rw [hrun, ← he], he'⟩
  · exact Or.inl (by rw [hrun, ← hpost])

end Framed

end Policy

end PartialInput
