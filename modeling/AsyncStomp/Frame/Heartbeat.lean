/-
# The text of a heart-beat

Two numbers and a comma between them.  Of what `parse_heartbeat` reads, this is all but the
numbers with a plus sign in front, which `u32::from_str` takes as well
(`parseHeartbeat_iff`).
-/
import AsyncStomp.Frame.Convert
import AsyncStomp.Frame.ToFrame
import Mathlib.Data.List.TakeWhile

namespace AsyncStomp

/-- Digits, one comma and digits, with these values. -/
def HeartbeatText (s : String) (x y : UInt32) : Prop :=
  ∃ left right, asBytes s = left ++ comma :: right ∧ Digits left x ∧ Digits right y

/-- Two numbers around a comma, at least one of them with a plus sign in front of its digits. -/
def SignedHeartbeat (s : String) : Prop :=
  ∃ left right x y ds es, asBytes s = left ++ comma :: right ∧ Digits ds x ∧ Digits es y ∧
    ((left = plus :: ds ∧ right = es) ∨ (left = ds ∧ right = plus :: es) ∨
      (left = plus :: ds ∧ right = plus :: es))

lemma heartbeatNumber_eq_ok_iff {s : Bytes} {n : UInt32} :
    heartbeatNumber s = .ok n ↔ parseU32 s = some n := by
  rw [heartbeatNumber]
  cases parseU32 s <;> simp

lemma Digits.comma_not_mem {ds : Bytes} {n : UInt32} (h : Digits ds n) : comma ∉ ds := by
  intro hmem
  exact absurd (h.digit comma hmem).1 (by decide)

/-- What is read is what stands around the first comma. -/
lemma parseHeartbeat_eq_ok_iff {s : String} {x y : UInt32} :
    parseHeartbeat s = .ok (x, y) ↔ ∃ left right, asBytes s = left ++ comma :: right ∧
      comma ∉ left ∧ parseU32 left = some x ∧ parseU32 right = some y := by
  have hsplit := List.takeWhile_append_dropWhile (p := (· != comma)) (l := asBytes s)
  have hcomma : comma ∉ (asBytes s).takeWhile (· != comma) := by
    intro hmem
    have hne := List.mem_takeWhile_imp hmem
    simp at hne
  constructor
  · intro h
    rw [parseHeartbeat] at h
    cases hright : (asBytes s).dropWhile (· != comma) with
    | nil =>
        rw [hright] at h
        cases h
    | cons b right =>
        have hhead := List.head?_dropWhile_not (· != comma) (asBytes s)
        rw [hright] at hhead h
        have hb : b = comma := by simpa using hhead
        subst hb
        obtain ⟨x', hx, h⟩ := except_bind_eq_ok.1 h
        obtain ⟨y', hy, h⟩ := except_bind_eq_ok.1 h
        cases h
        exact ⟨_, right, by rw [← hright, hsplit], hcomma, heartbeatNumber_eq_ok_iff.1 hx,
          heartbeatNumber_eq_ok_iff.1 hy⟩
  · rintro ⟨left, right, hs, hleft, hx, hy⟩
    -- there is no comma on the left, so this is where `split_once` splits
    have hne : ∀ b ∈ left, (b != comma) = true := fun b hb => by
      rw [bne_iff_ne]
      rintro rfl
      exact hleft hb
    have hdrop : (asBytes s).dropWhile (· != comma) = comma :: right := by
      rw [hs, List.dropWhile_append_of_pos hne]
      rfl
    have htake : (asBytes s).takeWhile (· != comma) = left := by
      rw [hs, List.takeWhile_append_of_pos hne]
      exact List.append_nil _
    rw [parseHeartbeat, hdrop]
    simp only [htake, heartbeatNumber_eq_ok_iff.2 hx, heartbeatNumber_eq_ok_iff.2 hy]
    rfl

lemma HeartbeatText.parseHeartbeat {s : String} {x y : UInt32} (h : HeartbeatText s x y) :
    parseHeartbeat s = .ok (x, y) := by
  obtain ⟨left, right, hs, hx, hy⟩ := h
  exact parseHeartbeat_eq_ok_iff.2 ⟨left, right, hs, hx.comma_not_mem, hx.parseU32, hy.parseU32⟩

/-- A heart-beat is read as it is printed. -/
lemma parseHeartbeat_of_asBytes {s : String} {v : UInt32 × UInt32}
    (h : asBytes s = heartbeatValue v) : parseHeartbeat s = .ok v :=
  HeartbeatText.parseHeartbeat ⟨_, _, h, digits_decimal v.1, digits_decimal v.2⟩

/-- A plus sign is not part of the text of a heart-beat. -/
lemma HeartbeatText.plus_not_mem {s : String} {x y : UInt32} (h : HeartbeatText s x y) :
    plus ∉ asBytes s := by
  obtain ⟨left, right, hs, hx, hy⟩ := h
  have hdigits : ∀ {ds : Bytes} {n : UInt32}, Digits ds n → plus ∉ ds := by
    intro ds n hds hmem
    exact absurd (hds.digit plus hmem).1 (by decide)
  rw [hs, List.mem_append, List.mem_cons, not_or, not_or]
  exact ⟨hdigits hx, by decide, hdigits hy⟩

/-- A heart-beat with a plus sign is read as one without. -/
lemma SignedHeartbeat.spec {s : String} (h : SignedHeartbeat s) :
    plus ∈ asBytes s ∧ ∃ x y, AsyncStomp.parseHeartbeat s = .ok (x, y) := by
  obtain ⟨left, right, x, y, ds, es, hs, hx, hy, hsign⟩ := h
  have hcomma : comma ∉ plus :: ds := by
    rw [List.mem_cons, not_or]
    exact ⟨by decide, hx.comma_not_mem⟩
  have hxs := parseU32_eq_some_iff.2 ⟨ds, Or.inr rfl, hx⟩
  have hys := parseU32_eq_some_iff.2 ⟨es, Or.inr rfl, hy⟩
  rcases hsign with ⟨rfl, rfl⟩ | ⟨rfl, rfl⟩ | ⟨rfl, rfl⟩
  · exact ⟨by simp [hs], x, y, parseHeartbeat_eq_ok_iff.2 ⟨_, _, hs, hcomma, hxs, hy.parseU32⟩⟩
  · exact ⟨by simp [hs], x, y,
      parseHeartbeat_eq_ok_iff.2 ⟨_, _, hs, hx.comma_not_mem, hx.parseU32, hys⟩⟩
  · exact ⟨by simp [hs], x, y, parseHeartbeat_eq_ok_iff.2 ⟨_, _, hs, hcomma, hxs, hys⟩⟩

/-- **Which heart-beats are read as they should be**: all but those with a plus sign.  What is
printed is read back. -/
theorem parseHeartbeat_iff (s : String) :
    ((∀ x y, parseHeartbeat s = .ok (x, y) ↔ HeartbeatText s x y) ↔ ¬ SignedHeartbeat s) ∧
      ∀ v, asBytes s = heartbeatValue v → parseHeartbeat s = .ok v := by
  refine ⟨⟨?_, ?_⟩, fun v => parseHeartbeat_of_asBytes⟩
  · intro h hsigned
    obtain ⟨hplus, x, y, hread⟩ := hsigned.spec
    exact ((h x y).1 hread).plus_not_mem hplus
  · intro hsigned x y
    refine ⟨fun h => ?_, HeartbeatText.parseHeartbeat⟩
    obtain ⟨left, right, hs, -, hx, hy⟩ := parseHeartbeat_eq_ok_iff.1 h
    obtain ⟨ds, rfl | rfl, hds⟩ := parseU32_eq_some_iff.1 hx <;>
      obtain ⟨es, rfl | rfl, hes⟩ := parseU32_eq_some_iff.1 hy
    · exact ⟨_, _, hs, hds, hes⟩
    · exact absurd ⟨_, _, x, y, _, _, hs, hds, hes, Or.inr (Or.inl ⟨rfl, rfl⟩)⟩ hsigned
    · exact absurd ⟨_, _, x, y, _, _, hs, hds, hes, Or.inl ⟨rfl, rfl⟩⟩ hsigned
    · exact absurd ⟨_, _, x, y, _, _, hs, hds, hes, Or.inr (Or.inr ⟨rfl, rfl⟩)⟩ hsigned

/-- **A heart-beat with a plus sign is read**, though it is not one. -/
theorem plus_sign_is_read :
    parseHeartbeat "+1,2" = .ok (1, 2) ∧ ∀ x y, ¬ HeartbeatText "+1,2" x y := by
  refine ⟨by decide, fun x y h => h.plus_not_mem ?_⟩
  decide

end AsyncStomp
