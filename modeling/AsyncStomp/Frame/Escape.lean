/-
# Escape sequences in headers

`Frame::serialize` writes a carriage return, a line feed, a colon and a backslash of a
header as two bytes each; `unescape_header_value` reads such pairs back.  Reading undoes
writing (`unescapeHeaderValue_escape`), nothing that was written ends a line or a key
(`keyStop_eq_false_of_mem_escape`), and writing changes exactly the names and values that
hold one of the four bytes (`escape_eq_self_iff`).
-/
import AsyncStomp.Bytes

namespace AsyncStomp

/-- `b'r'` -/
abbrev letterR : UInt8 := 114

/-- `b'n'` -/
abbrev letterN : UInt8 := 110

/-- `b'c'` -/
abbrev letterC : UInt8 := 99

/-- The bytes a header key ends at: `[':', '\r', '\n']`. -/
def keyStop (b : UInt8) : Bool := b == colon || b == cr || b == lf

/-- The bytes that `write_escaped` does not write as they are. -/
def isSpecial (b : UInt8) : Bool := b == cr || b == lf || b == colon || b == backslash

/-- `write_escaped`: the bytes put to the buffer for `b`. -/
def writeEscaped (escape : Bool) (b : UInt8) : Bytes :=
  if escape && b == cr then [backslash, letterR]
  else if escape && b == lf then [backslash, letterN]
  else if escape && b == colon then [backslash, letterC]
  else if escape && b == backslash then [backslash, backslash]
  else [b]

/-- The loop of `serialize` over the bytes of a key or a value. -/
def writeEscapedAll (escape : Bool) (bytes : Bytes) : Bytes := bytes.flatMap (writeEscaped escape)

/-- The escaped form of a key or a value. -/
def escape (bytes : Bytes) : Bytes := writeEscapedAll true bytes

/-- `unescape_header_value` -/
def unescapeHeaderValue : Bytes → Bytes
  | [] => []
  | [b] => [b]
  | b :: c :: rest =>
      if b = backslash then
        (if c = letterR then [cr]
          else if c = letterN then [lf]
          else if c = letterC then [colon]
          else if c = backslash then [backslash]
          -- an undefined sequence is kept as it is
          else [b, c]) ++ unescapeHeaderValue rest
      else b :: unescapeHeaderValue (c :: rest)

/-! ### Writing -/

/-- What is not escaped is written as it is. -/
@[simp] lemma writeEscapedAll_false (bytes : Bytes) : writeEscapedAll false bytes = bytes := by
  induction bytes with
  | nil => rfl
  | cons b bytes ih =>
      show writeEscaped false b ++ writeEscapedAll false bytes = b :: bytes
      rw [ih]
      simp [writeEscaped]

@[simp] lemma escape_nil : escape [] = [] := rfl

@[simp] lemma escape_cons (b : UInt8) (bytes : Bytes) :
    escape (b :: bytes) = writeEscaped true b ++ escape bytes := rfl

lemma escape_append (xs ys : Bytes) : escape (xs ++ ys) = escape xs ++ escape ys :=
  List.flatMap_append

lemma writeEscaped_of_not_special {b : UInt8} (h : isSpecial b = false) :
    writeEscaped true b = [b] := by
  simp only [isSpecial, Bool.or_eq_false_iff] at h
  obtain ⟨⟨⟨hcr, hlf⟩, hcolon⟩, hbackslash⟩ := h
  simp [writeEscaped, hcr, hlf, hcolon, hbackslash]

/-- The five ways in which a byte is written. -/
lemma writeEscaped_cases (b : UInt8) :
    (b = cr ∧ writeEscaped true b = [backslash, letterR]) ∨
      (b = lf ∧ writeEscaped true b = [backslash, letterN]) ∨
      (b = colon ∧ writeEscaped true b = [backslash, letterC]) ∨
      (b = backslash ∧ writeEscaped true b = [backslash, backslash]) ∨
      (isSpecial b = false ∧ writeEscaped true b = [b]) := by
  by_cases hcr : b = cr
  · subst hcr; exact Or.inl ⟨rfl, rfl⟩
  by_cases hlf : b = lf
  · subst hlf; exact Or.inr (Or.inl ⟨rfl, rfl⟩)
  by_cases hcolon : b = colon
  · subst hcolon; exact Or.inr (Or.inr (Or.inl ⟨rfl, rfl⟩))
  by_cases hbackslash : b = backslash
  · subst hbackslash; exact Or.inr (Or.inr (Or.inr (Or.inl ⟨rfl, rfl⟩)))
  have hb : isSpecial b = false := by simp [isSpecial, hcr, hlf, hcolon, hbackslash]
  exact Or.inr (Or.inr (Or.inr (Or.inr ⟨hb, writeEscaped_of_not_special hb⟩)))

/-! ### Reading back -/

lemma unescapeHeaderValue_cons {b : UInt8} (h : b ≠ backslash) (rest : Bytes) :
    unescapeHeaderValue (b :: rest) = b :: unescapeHeaderValue rest := by
  cases rest with
  | nil => rfl
  | cons c rest => rw [unescapeHeaderValue, if_neg h]

lemma unescapeHeaderValue_writeEscaped (b : UInt8) (rest : Bytes) :
    unescapeHeaderValue (writeEscaped true b ++ rest) = b :: unescapeHeaderValue rest := by
  rcases writeEscaped_cases b with ⟨rfl, h⟩ | ⟨rfl, h⟩ | ⟨rfl, h⟩ | ⟨rfl, h⟩ | ⟨hb, h⟩
  · rw [h]; rfl
  · rw [h]; rfl
  · rw [h]; rfl
  · rw [h]; rfl
  · rw [h, List.singleton_append]
    refine unescapeHeaderValue_cons ?_ rest
    rintro rfl
    simp [isSpecial] at hb

/-- **Unescaping undoes escaping.** -/
@[simp] theorem unescapeHeaderValue_escape (bytes : Bytes) :
    unescapeHeaderValue (escape bytes) = bytes := by
  induction bytes with
  | nil => rfl
  | cons b bytes ih => rw [escape_cons, unescapeHeaderValue_writeEscaped, ih]

lemma escape_injective : Function.Injective escape :=
  Function.LeftInverse.injective unescapeHeaderValue_escape

@[simp] lemma escape_inj {xs ys : Bytes} : escape xs = escape ys ↔ xs = ys :=
  escape_injective.eq_iff

/-! ### The bytes of an escaped key or value -/

lemma keyStop_eq_false_of_mem_writeEscaped {b c : UInt8} (hb : b ∈ writeEscaped true c) :
    keyStop b = false := by
  rcases writeEscaped_cases c with ⟨-, h⟩ | ⟨-, h⟩ | ⟨-, h⟩ | ⟨-, h⟩ | ⟨hs, h⟩ <;>
    simp only [h, List.mem_cons, List.not_mem_nil, or_false] at hb
  · rcases hb with rfl | rfl <;> rfl
  · rcases hb with rfl | rfl <;> rfl
  · rcases hb with rfl | rfl <;> rfl
  · rcases hb with rfl | rfl <;> rfl
  · subst hb
    simp only [isSpecial, Bool.or_eq_false_iff] at hs
    simp [keyStop, hs.1.2, hs.1.1.1, hs.1.1.2]

/-- Escaping leaves nothing that ends a key. -/
lemma keyStop_eq_false_of_mem_escape {bytes : Bytes} {b : UInt8} (hb : b ∈ escape bytes) :
    keyStop b = false := by
  obtain ⟨c, -, hc⟩ := List.mem_flatMap.1 hb
  exact keyStop_eq_false_of_mem_writeEscaped hc

/-- A byte that does not end a key does not end a line. -/
lemma isEol_eq_false_of_keyStop {b : UInt8} (h : keyStop b = false) : isEol b = false := by
  simp only [keyStop, Bool.or_eq_false_iff] at h
  simp [isEol, h.1.2, h.2]

lemma writeEscaped_ne_nil (b : UInt8) : writeEscaped true b ≠ [] := by
  rcases writeEscaped_cases b with ⟨-, h⟩ | ⟨-, h⟩ | ⟨-, h⟩ | ⟨-, h⟩ | ⟨-, h⟩ <;> simp [h]

@[simp] lemma escape_eq_nil {bytes : Bytes} : escape bytes = [] ↔ bytes = [] := by
  cases bytes with
  | nil => simp
  | cons b bytes => simp [writeEscaped_ne_nil]

lemma escape_of_not_special {bytes : Bytes} (h : ∀ b ∈ bytes, isSpecial b = false) :
    escape bytes = bytes := by
  induction bytes with
  | nil => rfl
  | cons b bytes ih =>
      rw [escape_cons, writeEscaped_of_not_special (h b (by simp)),
        ih fun c hc => h c (by simp [hc]), List.singleton_append]

/-- The bytes that escaping leaves alone are those without a special byte. -/
lemma escape_eq_self_iff {bytes : Bytes} :
    escape bytes = bytes ↔ ∀ b ∈ bytes, isSpecial b = false := by
  have hle : ∀ b ∈ bytes, [b].length ≤ (writeEscaped true b).length := fun b _ =>
    List.length_pos_iff.2 (writeEscaped_ne_nil b)
  have hblocks := flatMap_eq_flatMap_iff hle
  rw [List.flatMap_singleton'] at hblocks
  constructor
  · intro h b hb
    have hself := hblocks.1 h b hb
    rcases writeEscaped_cases b with ⟨-, hw⟩ | ⟨-, hw⟩ | ⟨-, hw⟩ | ⟨-, hw⟩ | ⟨hs, -⟩
    · simp [hw] at hself
    · simp [hw] at hself
    · simp [hw] at hself
    · simp [hw] at hself
    · exact hs
  · exact escape_of_not_special

/-! ### Escaping keeps strings strings -/

/-- Escaping one character of a string. -/
def escapeChar (c : Char) : List Char :=
  if c = '\r' then ['\\', 'r']
  else if c = '\n' then ['\\', 'n']
  else if c = ':' then ['\\', 'c']
  else if c = '\\' then ['\\', '\\']
  else [c]

lemma escape_utf8EncodeChar (c : Char) :
    escape (String.utf8EncodeChar c) = (escapeChar c).flatMap String.utf8EncodeChar := by
  by_cases hcr : c = '\r'
  · subst hcr; decide
  by_cases hlf : c = '\n'
  · subst hlf; decide
  by_cases hcolon : c = ':'
  · subst hcolon; decide
  by_cases hbackslash : c = '\\'
  · subst hbackslash; decide
  have hchar : escapeChar c = [c] := by simp [escapeChar, hcr, hlf, hcolon, hbackslash]
  rw [hchar, List.flatMap_singleton]
  apply escape_of_not_special
  intro b hb
  have hne : ∀ d : Char, d.toNat < 128 → c ≠ d → b ≠ UInt8.ofNat d.toNat := by
    rintro d hd hcd rfl
    exact hcd (eq_of_mem_utf8EncodeChar hd hb)
  have h1 := hne '\r' (by decide) hcr
  have h2 := hne '\n' (by decide) hlf
  have h3 := hne ':' (by decide) hcolon
  have h4 := hne '\\' (by decide) hbackslash
  simp only [isSpecial, Bool.or_eq_false_iff, beq_eq_false_iff_ne]
  exact ⟨⟨⟨h1, h2⟩, h3⟩, h4⟩

lemma escape_flatMap_utf8EncodeChar (cs : List Char) :
    escape (cs.flatMap String.utf8EncodeChar) =
      (cs.flatMap escapeChar).flatMap String.utf8EncodeChar := by
  induction cs with
  | nil => rfl
  | cons c cs ih =>
      rw [List.flatMap_cons, escape_append, escape_utf8EncodeChar, ih, List.flatMap_cons,
        List.flatMap_append]

/-- The escaped form of a string is a string again. -/
def escapeString (s : String) : String := String.ofList (s.toList.flatMap escapeChar)

@[simp] lemma asBytes_escapeString (s : String) :
    asBytes (escapeString s) = escape (asBytes s) := by
  rw [escapeString, asBytes_ofList, ← escape_flatMap_utf8EncodeChar, ← asBytes_eq_flatMap]

/-- The strings that escaping leaves alone. -/
lemma escapeString_eq_self_iff {s : String} :
    escapeString s = s ↔ ∀ b ∈ asBytes s, isSpecial b = false := by
  rw [← asBytes_inj, asBytes_escapeString, escape_eq_self_iff]

end AsyncStomp
