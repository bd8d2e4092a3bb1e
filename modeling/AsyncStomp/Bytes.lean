/-
# Bytes and strings

Buffers are lists of bytes and Rust's `String` is Lean's, which is UTF-8 by
construction as well.  `asBytes` and `fromUtf8` are the two directions between them.
-/
import Mathlib.Tactic.Common

namespace AsyncStomp

/-- The contents of a byte buffer, a byte slice or a `Vec<u8>`. -/
abbrev Bytes := List UInt8

/-- `b'\n'` -/
abbrev lf : UInt8 := 10

/-- `b'\r'` -/
abbrev cr : UInt8 := 13

/-- `b':'` -/
abbrev colon : UInt8 := 58

/-- `b'\\'` -/
abbrev backslash : UInt8 := 92

/-- `b'\x00'` -/
abbrev nul : UInt8 := 0

/-- The bytes that end a line, alone or together. -/
def isEol (b : UInt8) : Bool := b == lf || b == cr

/-- `str::as_bytes`, which is also how a byte string literal is written here. -/
def asBytes (s : String) : Bytes := s.toByteArray.data.toList

/-- `String::from_utf8(bytes).ok()` -/
def fromUtf8 (bytes : Bytes) : Option String := String.fromUTF8? ⟨bytes.toArray⟩

/-! ### Lists written block by block -/

lemma length_flatMap_le {α β : Type} {f g : α → List β} {l : List α}
    (hle : ∀ x ∈ l, (g x).length ≤ (f x).length) :
    (l.flatMap g).length ≤ (l.flatMap f).length := by
  induction l with
  | nil => simp
  | cons x l ih =>
      have hx := hle x (by simp)
      have hl := ih fun y hy => hle y (by simp [hy])
      simp only [List.flatMap_cons, List.length_append]
      omega

/-- Where every block of one list is at least as long as its counterpart, the lists are equal only
block by block. -/
lemma flatMap_eq_flatMap_iff {α β : Type} {f g : α → List β} {l : List α}
    (hle : ∀ x ∈ l, (g x).length ≤ (f x).length) :
    l.flatMap f = l.flatMap g ↔ ∀ x ∈ l, f x = g x := by
  constructor
  · intro h
    induction l with
    | nil => simp
    | cons x l ih =>
        have hx := hle x (by simp)
        have hl := length_flatMap_le fun y (hy : y ∈ l) => hle y (by simp [hy])
        have hlen := congrArg List.length h
        simp only [List.flatMap_cons, List.length_append] at hlen
        obtain ⟨hhead, htail⟩ := List.append_inj h (by omega)
        intro y hy
        rcases List.mem_cons.1 hy with rfl | hy
        · exact hhead
        · exact ih (fun z hz => hle z (by simp [hz])) htail y hy
  · intro h
    rw [List.flatMap_def, List.flatMap_def, List.map_congr_left h]

/-! ### Strings and their bytes -/

lemma asBytes_injective : Function.Injective asBytes := by
  intro s t h
  apply String.toByteArray_inj.1
  apply ByteArray.ext
  exact Array.toList_inj.1 h

@[simp] lemma asBytes_inj {s t : String} : asBytes s = asBytes t ↔ s = t :=
  asBytes_injective.eq_iff

@[simp] lemma fromUtf8_asBytes (s : String) : fromUtf8 (asBytes s) = some s := by
  have hvalid : (⟨(asBytes s).toArray⟩ : ByteArray).IsValidUTF8 := s.isValidUTF8
  rw [fromUtf8, String.fromUTF8?, dif_pos hvalid]
  rfl

lemma fromUtf8_eq_some {bytes : Bytes} {s : String} :
    fromUtf8 bytes = some s ↔ bytes = asBytes s := by
  constructor
  · intro h
    by_cases hvalid : (⟨bytes.toArray⟩ : ByteArray).IsValidUTF8
    · rw [fromUtf8, String.fromUTF8?, dif_pos hvalid, Option.some.injEq] at h
      rw [← h]
      rfl
    · rw [fromUtf8, String.fromUTF8?, dif_neg hvalid] at h
      cases h
  · rintro rfl
    exact fromUtf8_asBytes s

@[simp] lemma asBytes_append (s t : String) : asBytes (s ++ t) = asBytes s ++ asBytes t := by
  simp [asBytes]

lemma asBytes_ofList (cs : List Char) :
    asBytes (String.ofList cs) = cs.flatMap String.utf8EncodeChar := by
  simp [asBytes, List.utf8Encode]

lemma asBytes_eq_flatMap (s : String) : asBytes s = s.toList.flatMap String.utf8EncodeChar := by
  rw [← asBytes_ofList, String.ofList_toList]

/-! ### The bytes of one character -/

/-- An ASCII character is its own encoding. -/
lemma utf8EncodeChar_of_lt {c : Char} (h : c.toNat < 128) :
    String.utf8EncodeChar c = [UInt8.ofNat c.toNat] := by
  have hle : c.val.toNat ≤ 127 := Nat.le_of_lt_succ h
  rw [String.utf8EncodeChar, if_pos hle]
  rfl

/-- No byte of another character's encoding is an ASCII byte. -/
lemma le_of_mem_utf8EncodeChar {c : Char} (h : 128 ≤ c.toNat) {b : UInt8}
    (hb : b ∈ String.utf8EncodeChar c) : 128 ≤ b.toNat := by
  have hgt : ¬ c.val.toNat ≤ 127 := by
    have hval : c.toNat = c.val.toNat := rfl
    omega
  rw [String.utf8EncodeChar] at hb
  simp only [if_neg hgt] at hb
  split_ifs at hb <;> simp only [List.mem_cons, List.not_mem_nil, or_false] at hb <;>
    rcases hb with rfl | rfl | rfl | rfl <;> simp [UInt8.toNat_ofNat'] <;> omega

/-- An ASCII byte stands in the encoding of its own character only. -/
lemma eq_of_mem_utf8EncodeChar {c d : Char} (hd : d.toNat < 128)
    (hb : UInt8.ofNat d.toNat ∈ String.utf8EncodeChar c) : c = d := by
  have hbyte : (UInt8.ofNat d.toNat).toNat = d.toNat := by
    rw [UInt8.toNat_ofNat']
    omega
  by_cases hlt : c.toNat < 128
  · rw [utf8EncodeChar_of_lt hlt, List.mem_singleton] at hb
    have hnat := congrArg UInt8.toNat hb
    rw [hbyte, UInt8.toNat_ofNat'] at hnat
    apply Char.toNat_inj.1
    omega
  · have hle := le_of_mem_utf8EncodeChar (Nat.le_of_not_lt hlt) hb
    omega

/-! ### UTF-8 -/

/-- The bytes are the encoding of some characters. -/
def ValidUtf8 (bytes : Bytes) : Prop := ∃ cs : List Char, bytes = cs.flatMap String.utf8EncodeChar

lemma validUtf8_asBytes (s : String) : ValidUtf8 (asBytes s) := ⟨s.toList, asBytes_eq_flatMap s⟩

lemma validUtf8_iff_exists {bytes : Bytes} : ValidUtf8 bytes ↔ ∃ s, fromUtf8 bytes = some s := by
  constructor
  · rintro ⟨cs, rfl⟩
    exact ⟨String.ofList cs, fromUtf8_eq_some.2 (asBytes_ofList cs).symm⟩
  · rintro ⟨s, h⟩
    exact fromUtf8_eq_some.1 h ▸ validUtf8_asBytes s

lemma fromUtf8_eq_none {bytes : Bytes} : fromUtf8 bytes = none ↔ ¬ ValidUtf8 bytes := by
  rw [validUtf8_iff_exists, ← Option.ne_none_iff_exists', not_not]

instance (bytes : Bytes) : Decidable (ValidUtf8 bytes) :=
  decidable_of_iff ((fromUtf8 bytes).isSome = true) (by
    rw [validUtf8_iff_exists, Option.isSome_iff_exists])

lemma validUtf8_nil : ValidUtf8 [] := ⟨[], rfl⟩

lemma ValidUtf8.append {xs ys : Bytes} (hx : ValidUtf8 xs) (hy : ValidUtf8 ys) :
    ValidUtf8 (xs ++ ys) := by
  obtain ⟨cs, rfl⟩ := hx
  obtain ⟨ds, rfl⟩ := hy
  exact ⟨cs ++ ds, List.flatMap_append.symm⟩

lemma validUtf8_singleton {b : UInt8} (h : b.toNat < 128) : ValidUtf8 [b] := by
  have hchar : (Char.ofNat b.toNat).toNat = b.toNat := by
    have hvalid : b.toNat.isValidChar := Or.inl (by omega)
    rw [Char.ofNat, dif_pos hvalid]
    rfl
  refine ⟨[Char.ofNat b.toNat], ?_⟩
  rw [List.flatMap_singleton, utf8EncodeChar_of_lt (by omega), hchar, UInt8.ofNat_toNat]

/-- **An ASCII byte is a character of its own**: what stands in front of it and behind it is encoded
separately. -/
theorem validUtf8_append_cons {xs ys : Bytes} {b : UInt8} (h : b.toNat < 128) :
    ValidUtf8 (xs ++ b :: ys) ↔ ValidUtf8 xs ∧ ValidUtf8 ys := by
  constructor
  · rintro ⟨cs, hcs⟩
    induction cs generalizing xs with
    | nil => simp at hcs
    | cons c cs ih =>
        rw [List.flatMap_cons] at hcs
        rcases List.append_eq_append_iff.1 hcs with ⟨zs, henc, hrest⟩ | ⟨zs, rfl, hrest⟩
        · -- the byte belongs to the first character, which is no other
          cases zs with
          | nil =>
              rw [List.append_nil] at henc
              have hempty : [] ++ b :: ys = cs.flatMap String.utf8EncodeChar := hrest
              have hys := (ih hempty).2
              exact ⟨⟨[c], by rw [List.flatMap_singleton, henc]⟩, hys⟩
          | cons z zs =>
              rw [List.cons_append] at hrest
              obtain ⟨rfl, hys⟩ := List.cons.inj hrest
              have hlt : c.toNat < 128 := by
                by_contra hge
                have hle := le_of_mem_utf8EncodeChar (c := c) (b := b) (by omega) (by simp [henc])
                omega
              have hlen := congrArg List.length henc
              rw [utf8EncodeChar_of_lt hlt, List.length_singleton, List.length_append,
                List.length_cons] at hlen
              have hxs : xs = [] := List.length_eq_zero_iff.1 (by omega)
              have hzs : zs = [] := List.length_eq_zero_iff.1 (by omega)
              rw [hzs, List.nil_append] at hys
              rw [hxs, hys]
              exact ⟨validUtf8_nil, cs, rfl⟩
        · obtain ⟨hzs, hys⟩ := ih hrest.symm
          exact ⟨ValidUtf8.append ⟨[c], by simp⟩ hzs, hys⟩
  · rintro ⟨hx, hy⟩
    exact hx.append ((validUtf8_singleton h).append hy)

lemma validUtf8_cons {ys : Bytes} {b : UInt8} (h : b.toNat < 128) :
    ValidUtf8 (b :: ys) ↔ ValidUtf8 ys :=
  (@validUtf8_append_cons [] ys b h).trans (and_iff_right validUtf8_nil)

lemma validUtf8_of_lt {bytes : Bytes} (h : ∀ b ∈ bytes, b.toNat < 128) : ValidUtf8 bytes := by
  induction bytes with
  | nil => exact validUtf8_nil
  | cons b bytes ih =>
      rw [validUtf8_cons (h b (by simp))]
      exact ih fun c hc => h c (by simp [hc])

end AsyncStomp
