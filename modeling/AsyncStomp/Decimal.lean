/-
# Decimal numbers on the wire

`content-length` and `heart-beat` carry `u32` values as text.  They are printed by Rust's
`Display` and read by `str::parse::<u32>`, which takes an optional plus sign and then one
or more digits, and refuses a value of `2 ^ 32` or more.  Reading undoes printing
(`parseU32_decimal`).
-/
import AsyncStomp.Bytes

namespace AsyncStomp

/-- `b'+'` -/
abbrev plus : UInt8 := 43

/-- `b','` -/
abbrev comma : UInt8 := 44

/-- The bytes of a number as `Display` prints it. -/
def decimal (n : ℕ) : Bytes := asBytes (toString n)

/-- The value of a decimal digit, as `char::to_digit(10)` on the byte. -/
def digitValue (b : UInt8) : Option ℕ :=
  if 48 ≤ b.toNat ∧ b.toNat ≤ 57 then some (b.toNat - 48) else none

/-- The digit loop of `u32::from_str_radix`, with its two overflow checks taken together. -/
def parseDigits : ℕ → Bytes → Option ℕ
  | acc, [] => some acc
  | acc, b :: bs =>
      match digitValue b with
      | some d => if acc * 10 + d < UInt32.size then parseDigits (acc * 10 + d) bs else none
      | none => none

/-- `str::parse::<u32>`, on the bytes of the string. -/
def parseU32 (src : Bytes) : Option UInt32 :=
  match src with
  | [] => none
  | b :: rest =>
      -- a sign alone is no number, and is left to fail as a digit
      if b = plus ∧ rest ≠ [] then (parseDigits 0 rest).map UInt32.ofNat
      else (parseDigits 0 src).map UInt32.ofNat

/-! ### Printing -/

lemma asBytes_singleton {c : Char} (h : c.toNat < 128) :
    asBytes (String.singleton c) = [UInt8.ofNat c.toNat] := by
  have hlist : String.singleton c = String.ofList [c] := by simp
  rw [hlist, asBytes_ofList, List.flatMap_singleton, utf8EncodeChar_of_lt h]

lemma decimal_of_lt {n : ℕ} (h : n < 10) : decimal n = [UInt8.ofNat (48 + n)] := by
  have hchar : (Nat.digitChar n).toNat = 48 + n := Nat.toNat_digitChar_of_lt_ten h
  have hstr : toString n = String.singleton (Nat.digitChar n) := by
    rw [Nat.toString_eq_ofList_toDigits, Nat.toDigits_of_lt_base h]
    simp
  rw [decimal, hstr, asBytes_singleton (by omega), hchar]

lemma decimal_of_ge {n : ℕ} (h : 10 ≤ n) :
    decimal n = decimal (n / 10) ++ [UInt8.ofNat (48 + n % 10)] := by
  have hlt : n % 10 < 10 := Nat.mod_lt _ (by decide)
  have hchar : (Nat.digitChar (n % 10)).toNat = 48 + n % 10 := Nat.toNat_digitChar_of_lt_ten hlt
  have hstr : toString n = toString (n / 10) ++ String.singleton (Nat.digitChar (n % 10)) := by
    rw [Nat.toString_eq_ofList_toDigits, Nat.toString_eq_ofList_toDigits,
      Nat.toDigits_of_base_le (by decide) h]
    simp
  rw [decimal, hstr, asBytes_append, asBytes_singleton (by omega), hchar]
  rfl

/-- Induction along the digits of a number. -/
lemma decimal_induction {motive : ℕ → Prop} (lt : ∀ n, n < 10 → motive n)
    (ge : ∀ n, 10 ≤ n → motive (n / 10) → motive n) (n : ℕ) : motive n := by
  induction n using Nat.strongRecOn with
  | _ n ih =>
      by_cases h : n < 10
      · exact lt n h
      · exact ge n (by omega) (ih (n / 10) (by omega))

lemma decimal_ne_nil (n : ℕ) : decimal n ≠ [] := by
  by_cases h : n < 10
  · simp [decimal_of_lt h]
  · simp [decimal_of_ge (Nat.le_of_not_lt h)]

/-- A printed number consists of digits. -/
lemma digit_of_mem_decimal (n : ℕ) : ∀ b ∈ decimal n, 48 ≤ b.toNat ∧ b.toNat ≤ 57 := by
  have hdigit : ∀ d, d < 10 → 48 ≤ (UInt8.ofNat (48 + d)).toNat ∧
      (UInt8.ofNat (48 + d)).toNat ≤ 57 := by
    intro d hd
    simp only [UInt8.toNat_ofNat']
    omega
  induction n using decimal_induction with
  | lt n h =>
      intro b hb
      rw [decimal_of_lt h, List.mem_singleton] at hb
      exact hb ▸ hdigit n h
  | ge n h ih =>
      intro b hb
      rw [decimal_of_ge h, List.mem_append, List.mem_singleton] at hb
      rcases hb with hb | rfl
      · exact ih b hb
      · exact hdigit _ (Nat.mod_lt _ (by decide))

lemma ne_of_mem_decimal {n : ℕ} {b c : UInt8} (hb : b ∈ decimal n)
    (hc : c.toNat < 48 ∨ 57 < c.toNat) : b ≠ c := by
  have hdigit := digit_of_mem_decimal n b hb
  rintro rfl
  omega

/-! ### Reading -/

lemma parseDigits_append (xs ys : Bytes) (acc : ℕ) :
    parseDigits acc (xs ++ ys) = (parseDigits acc xs).bind fun v => parseDigits v ys := by
  induction xs generalizing acc with
  | nil => rfl
  | cons x xs ih =>
      simp only [List.cons_append, parseDigits]
      cases digitValue x with
      | none => rfl
      | some d =>
          by_cases hlt : acc * 10 + d < UInt32.size
          · simp only [if_pos hlt, ih]
          · simp only [if_neg hlt, Option.bind_none]

lemma digitValue_ofNat {d : ℕ} (h : d < 10) : digitValue (UInt8.ofNat (48 + d)) = some d := by
  have hval : (UInt8.ofNat (48 + d)).toNat = 48 + d := by
    simp only [UInt8.toNat_ofNat']
    omega
  rw [digitValue, hval, if_pos (by omega)]
  simp

lemma parseDigits_decimal (n : ℕ) : n < UInt32.size → parseDigits 0 (decimal n) = some n := by
  induction n using decimal_induction with
  | lt n h =>
      intro hn
      rw [decimal_of_lt h]
      simp only [parseDigits, digitValue_ofNat h, Nat.zero_mul, Nat.zero_add, if_pos hn]
  | ge n h ih =>
      intro hn
      have hlt : n % 10 < 10 := Nat.mod_lt _ (by decide)
      have hval : n / 10 * 10 + n % 10 = n := by omega
      rw [decimal_of_ge h, parseDigits_append, ih (by omega), Option.bind_some]
      simp only [parseDigits, digitValue_ofNat hlt, hval, if_pos hn]

/-- **Reading a printed number gives it back.** -/
theorem parseU32_decimal {n : ℕ} (h : n < UInt32.size) :
    parseU32 (decimal n) = some (UInt32.ofNat n) := by
  obtain ⟨b, rest, hb⟩ := List.exists_cons_of_ne_nil (decimal_ne_nil n)
  have hplus : b ≠ plus := ne_of_mem_decimal (n := n) (by rw [hb]; simp) (by decide)
  have hdigits := parseDigits_decimal n h
  rw [hb] at hdigits ⊢
  simp [parseU32, hplus, hdigits]

lemma parseU32_decimal_toNat (v : UInt32) : parseU32 (decimal v.toNat) = some v := by
  rw [parseU32_decimal v.toNat_lt, UInt32.ofNat_toNat]

example : parseU32 (asBytes "+017") = some 17 := by decide

/-! ### The language -/

/-- The value of a run of digits behind the digits of `acc`. -/
def digitsValue (acc : ℕ) (ds : Bytes) : ℕ := ds.foldl (fun acc b => acc * 10 + (b.toNat - 48)) acc

/-- A non-empty run of ASCII digits with this value. -/
structure Digits (ds : Bytes) (n : UInt32) : Prop where
  ne_nil : ds ≠ []
  digit : ∀ b ∈ ds, 48 ≤ b.toNat ∧ b.toNat ≤ 57
  value_eq : digitsValue 0 ds = n.toNat

lemma le_digitsValue (acc : ℕ) (ds : Bytes) : acc ≤ digitsValue acc ds := by
  induction ds generalizing acc with
  | nil => exact Nat.le_refl acc
  | cons b ds ih =>
      have hstep := ih (acc * 10 + (b.toNat - 48))
      rw [digitsValue, List.foldl_cons, ← digitsValue]
      omega

/-- The digit loop takes digits only, and stops where their value no longer fits. -/
lemma parseDigits_eq_some_iff {ds : Bytes} {acc v : ℕ} (hacc : acc < UInt32.size) :
    parseDigits acc ds = some v ↔
      (∀ b ∈ ds, 48 ≤ b.toNat ∧ b.toNat ≤ 57) ∧ digitsValue acc ds = v ∧ v < UInt32.size := by
  induction ds generalizing acc with
  | nil =>
      rw [parseDigits, Option.some.injEq]
      constructor
      · rintro rfl
        exact ⟨by simp, rfl, hacc⟩
      · exact fun h => h.2.1
  | cons b ds ih =>
      rw [digitsValue, List.foldl_cons, ← digitsValue, List.forall_mem_cons]
      by_cases hb : 48 ≤ b.toNat ∧ b.toNat ≤ 57
      · have hle := le_digitsValue (acc * 10 + (b.toNat - 48)) ds
        have hvalue : digitValue b = some (b.toNat - 48) := if_pos hb
        simp only [parseDigits, hvalue, hb, and_self, true_and]
        by_cases hlt : acc * 10 + (b.toNat - 48) < UInt32.size
        · rw [if_pos hlt, ih hlt]
        · -- further digits only make the number greater
          rw [if_neg hlt]
          constructor
          · rintro ⟨⟩
          · rintro ⟨-, rfl, hv⟩
            omega
      · have hvalue : digitValue b = none := if_neg hb
        simp only [parseDigits, hvalue, hb, false_and]
        constructor
        · rintro ⟨⟩
        · exact False.elim

/-- **What is read as a number**: digits, with or without a plus sign in front. -/
theorem parseU32_eq_some_iff {src : Bytes} {n : UInt32} :
    parseU32 src = some n ↔ ∃ ds, (src = ds ∨ src = plus :: ds) ∧ Digits ds n := by
  have hrun : ∀ {ds : Bytes}, ds ≠ [] →
      ((parseDigits 0 ds).map UInt32.ofNat = some n ↔ Digits ds n) := by
    intro ds hne
    rw [Option.map_eq_some_iff]
    constructor
    · rintro ⟨v, hv, rfl⟩
      obtain ⟨hdigit, hvalue, hlt⟩ := (parseDigits_eq_some_iff (by decide)).1 hv
      exact ⟨hne, hdigit, by rw [hvalue, UInt32.toNat_ofNat_of_lt' hlt]⟩
    · rintro ⟨-, hdigit, hvalue⟩
      refine ⟨n.toNat, ?_, by simp⟩
      exact (parseDigits_eq_some_iff (by decide)).2 ⟨hdigit, hvalue, n.toNat_lt⟩
  -- a plus sign is no digit
  have hplus : ∀ ds : Bytes, ¬ Digits (plus :: ds) n := by
    intro ds h
    have hdigit := h.digit plus (by simp)
    exact absurd hdigit.1 (by decide)
  cases src with
  | nil =>
      rw [parseU32]
      constructor
      · rintro ⟨⟩
      · rintro ⟨ds, rfl | hds, h⟩
        · exact absurd rfl h.ne_nil
        · cases hds
  | cons b rest =>
      rw [parseU32]
      by_cases hsign : b = plus ∧ rest ≠ []
      · obtain ⟨rfl, hne⟩ := hsign
        rw [if_pos ⟨rfl, hne⟩, hrun hne]
        constructor
        · exact fun h => ⟨rest, Or.inr rfl, h⟩
        · rintro ⟨ds, rfl | hds, h⟩
          · exact absurd h (hplus rest)
          · rwa [(List.cons.inj hds).2]
      · rw [if_neg hsign, hrun (List.cons_ne_nil b rest)]
        constructor
        · exact fun h => ⟨_, Or.inl rfl, h⟩
        · rintro ⟨ds, rfl | hds, h⟩
          · exact h
          · obtain ⟨rfl, rfl⟩ := List.cons.inj hds
            exact absurd ⟨rfl, h.ne_nil⟩ hsign

lemma Digits.parseU32 {ds : Bytes} {n : UInt32} (h : Digits ds n) : parseU32 ds = some n :=
  parseU32_eq_some_iff.2 ⟨ds, Or.inl rfl, h⟩

lemma digits_decimal (n : UInt32) : Digits (decimal n.toNat) n := by
  obtain ⟨ds, hds | hds, h⟩ := parseU32_eq_some_iff.1 (parseU32_decimal_toNat n)
  · rwa [hds]
  · have hne : plus ≠ plus := ne_of_mem_decimal (n := n.toNat) (by rw [hds]; simp) (by decide)
    exact absurd rfl hne

end AsyncStomp
