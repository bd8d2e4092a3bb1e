/-
# The scan for escape sequences

`unescape_header_value` reads a value from left to right, a backslash together with the byte
behind it.  Cutting the value up in this way shows that unescaping can be undone exactly
when every piece is what escaping writes (`escape_unescapeHeaderValue_iff`), and that it
neither makes a value UTF-8 nor spoils it (`validUtf8_unescapeHeaderValue`).
-/
import AsyncStomp.Frame.Convert
import AsyncStomp.Frame.ToFrame

namespace AsyncStomp

/-- What a scan from left to right finds. -/
inductive EscapePiece where
  | plain (b : UInt8) (h : b ≠ backslash)
  /-- A backslash and the byte behind it. -/
  | pair (b : UInt8)
  /-- A backslash with nothing behind it. -/
  | trailing
deriving DecidableEq, Repr

/-- The pieces of a value. -/
def scan : Bytes → List EscapePiece
  | [] => []
  | [b] => [if h : b = backslash then .trailing else .plain b h]
  | b :: c :: rest =>
      if h : b = backslash then .pair c :: scan rest else .plain b h :: scan (c :: rest)

namespace EscapePiece

/-- The bytes of a piece. -/
def bytes : EscapePiece → Bytes
  | plain b _ => [b]
  | pair b => [backslash, b]
  | trailing => [backslash]

/-- The sequence is one of the four that are defined; a plain byte is none. -/
def Defined : EscapePiece → Prop
  | plain _ _ => True
  | pair b => b = letterR ∨ b = letterN ∨ b = letterC ∨ b = backslash
  | trailing => False

instance (p : EscapePiece) : Decidable p.Defined := by
  cases p <;> unfold Defined <;> infer_instance

/-- What a piece is read as. -/
def meaning : EscapePiece → Bytes
  | plain b _ => [b]
  | pair b =>
      if b = letterR then [cr]
      else if b = letterN then [lf]
      else if b = letterC then [colon]
      else if b = backslash then [backslash]
      else [backslash, b]
  | trailing => [backslash]

/-- What is not defined is kept as it is. -/
lemma meaning_of_not_defined {p : EscapePiece} (h : ¬ p.Defined) : p.meaning = p.bytes := by
  cases p with
  | plain b _ => rfl
  | pair b =>
      simp only [Defined, not_or] at h
      simp only [meaning, if_neg h.1, if_neg h.2.1, if_neg h.2.2.1, if_neg h.2.2.2, bytes]
  | trailing => rfl

/-- A pair that is defined is read as one byte, and both are ASCII. -/
lemma exists_of_defined_pair {b : UInt8} (h : (pair b).Defined) :
    b.toNat < 128 ∧ ∃ c : UInt8, (pair b).meaning = [c] ∧ c.toNat < 128 ∧
      writeEscaped true c = [backslash, b] := by
  rcases h with rfl | rfl | rfl | rfl
  · exact ⟨by decide, cr, rfl, by decide, rfl⟩
  · exact ⟨by decide, lf, rfl, by decide, rfl⟩
  · exact ⟨by decide, colon, rfl, by decide, rfl⟩
  · exact ⟨by decide, backslash, rfl, by decide, rfl⟩

/-- A piece is read as no more bytes than it has. -/
lemma length_meaning_le (p : EscapePiece) : p.meaning.length ≤ p.bytes.length := by
  cases p with
  | plain b _ => exact Nat.le_refl _
  | pair b =>
      by_cases hdefined : (pair b).Defined
      · obtain ⟨-, c, hmeaning, -⟩ := exists_of_defined_pair hdefined
        rw [hmeaning]
        exact Nat.le_succ 1
      · exact Nat.le_of_eq (congrArg List.length (meaning_of_not_defined hdefined))
  | trailing => exact Nat.le_refl _

end EscapePiece

open EscapePiece

/-! ### Pieces -/

lemma scan_cons {b : UInt8} (h : b ≠ backslash) (rest : Bytes) :
    scan (b :: rest) = .plain b h :: scan rest := by
  cases rest with
  | nil => simp [scan, h]
  | cons c rest => rw [scan, dif_neg h]

lemma scan_pair (b : UInt8) (rest : Bytes) :
    scan (backslash :: b :: rest) = .pair b :: scan rest := by
  rw [scan, dif_pos rfl]

/-- Induction along a scan. -/
lemma scan_induction {motive : Bytes → Prop} (nil : motive [])
    (plain : ∀ b rest, b ≠ backslash → motive rest → motive (b :: rest))
    (pair : ∀ b rest, motive rest → motive (backslash :: b :: rest))
    (trailing : motive [backslash]) (w : Bytes) : motive w := by
  induction w using scan.induct with
  | case1 => exact nil
  | case2 b =>
      by_cases hb : b = backslash
      · exact hb ▸ trailing
      · exact plain b [] hb nil
  | case3 c rest ih => exact pair c rest ih
  | case4 b c rest hb ih => exact plain b (c :: rest) hb ih

/-- The pieces of a value make it up. -/
lemma flatMap_bytes_scan (w : Bytes) : (scan w).flatMap EscapePiece.bytes = w := by
  induction w using scan_induction with
  | nil => rfl
  | plain b rest hb ih => rw [scan_cons hb, List.flatMap_cons, ih]; rfl
  | pair b rest ih => rw [scan_pair, List.flatMap_cons, ih]; rfl
  | trailing => rfl

lemma unescapeHeaderValue_pair (b : UInt8) (rest : Bytes) :
    unescapeHeaderValue (backslash :: b :: rest) =
      (EscapePiece.pair b).meaning ++ unescapeHeaderValue rest := by
  rw [unescapeHeaderValue, if_pos rfl]
  rfl

/-- **Unescaping reads piece by piece.** -/
theorem unescapeHeaderValue_eq (w : Bytes) :
    unescapeHeaderValue w = (scan w).flatMap EscapePiece.meaning := by
  induction w using scan_induction with
  | nil => rfl
  | plain b rest hb ih =>
      rw [unescapeHeaderValue_cons hb, scan_cons hb, List.flatMap_cons, ih]
      rfl
  | pair b rest ih => rw [unescapeHeaderValue_pair, scan_pair, List.flatMap_cons, ih]
  | trailing => rfl

/-! ### Undoing -/

namespace EscapePiece

/-- The piece is what escaping writes: it holds no byte that ends a line or a key, and starts no
other sequence than the four. -/
def Canonical (p : EscapePiece) : Prop := (∀ b ∈ p.bytes, keyStop b = false) ∧ p.Defined

/-- A piece is never longer than the escaped form of what it is read as, and the two are the same
only for the pieces that escaping writes. -/
lemma escape_meaning (p : EscapePiece) :
    p.bytes.length ≤ (escape p.meaning).length ∧ (escape p.meaning = p.bytes ↔ p.Canonical) := by
  cases p with
  | plain b hb =>
      have hescape : escape (plain b hb).meaning = writeEscaped true b := by
        rw [meaning, escape_cons, escape_nil, List.append_nil]
      rw [hescape]
      refine ⟨List.length_pos_iff.2 (writeEscaped_ne_nil b), ?_⟩
      rcases writeEscaped_cases b with ⟨rfl, hw⟩ | ⟨rfl, hw⟩ | ⟨rfl, hw⟩ | ⟨rfl, hw⟩ | ⟨hs, hw⟩
      · simp [hw, bytes, Canonical, keyStop]
      · simp [hw, bytes, Canonical, keyStop]
      · simp [hw, bytes, Canonical, keyStop]
      · exact absurd rfl hb
      · simp only [isSpecial, Bool.or_eq_false_iff, beq_eq_false_iff_ne] at hs
        simp [hw, bytes, Canonical, Defined, keyStop, hs.1.1.1, hs.1.1.2, hs.1.2]
  | pair b =>
      by_cases hdefined : (pair b).Defined
      · obtain ⟨-, c, hmeaning, -, hw⟩ := exists_of_defined_pair hdefined
        have hescape : escape (pair b).meaning = (pair b).bytes := by
          rw [hmeaning, escape_cons, escape_nil, List.append_nil, hw]
          rfl
        have hstop : ∀ d ∈ (pair b).bytes, keyStop d = false := by
          intro d hd
          rw [← hescape] at hd
          exact keyStop_eq_false_of_mem_escape hd
        rw [hescape]
        exact ⟨Nat.le_refl _, fun _ => ⟨hstop, hdefined⟩, fun _ => rfl⟩
      · -- the backslash alone is written as two bytes
        have hpos := List.length_pos_iff.2 (writeEscaped_ne_nil b)
        have hlen : (pair b).bytes.length < (escape (pair b).meaning).length := by
          rw [meaning_of_not_defined hdefined, bytes, escape_cons, escape_cons, escape_nil,
            List.length_append, List.length_append]
          show 2 < 2 + ((writeEscaped true b).length + 0)
          omega
        refine ⟨Nat.le_of_lt hlen, fun heq => ?_, fun h => absurd h.2 hdefined⟩
        rw [heq] at hlen
        omega
  | trailing =>
      refine ⟨by decide, fun heq => ?_, fun h => absurd h.2 id⟩
      cases heq

end EscapePiece

/-- **When unescaping can be undone**: exactly where nothing ends a line or a key, and every
backslash found by the scan starts one of the four sequences. -/
theorem escape_unescapeHeaderValue_iff (w : Bytes) :
    escape (unescapeHeaderValue w) = w ↔
      (∀ b ∈ w, keyStop b = false) ∧ ∀ p ∈ scan w, p.Defined := by
  have hpieces := flatMap_eq_flatMap_iff fun p (_ : p ∈ scan w) => p.escape_meaning.1
  have hescape : escape (unescapeHeaderValue w) = (scan w).flatMap fun p => escape p.meaning := by
    rw [unescapeHeaderValue_eq, escape, writeEscapedAll, List.flatMap_assoc]
    rfl
  rw [flatMap_bytes_scan, ← hescape] at hpieces
  rw [hpieces]
  constructor
  · intro h
    have hcanonical : ∀ p ∈ scan w, p.Canonical := fun p hp => p.escape_meaning.2.1 (h p hp)
    refine ⟨fun b hb => ?_, fun p hp => (hcanonical p hp).2⟩
    rw [← flatMap_bytes_scan w] at hb
    obtain ⟨p, hp, hbp⟩ := List.mem_flatMap.1 hb
    exact (hcanonical p hp).1 b hbp
  · rintro ⟨hstop, hdefined⟩ p hp
    refine p.escape_meaning.2.2 ⟨fun b hb => hstop b ?_, hdefined p hp⟩
    rw [← flatMap_bytes_scan w]
    exact List.mem_flatMap.2 ⟨p, hp, hb⟩

/-- **When unescaping changes nothing**: exactly where no backslash found by the scan starts one of
the four sequences. -/
theorem unescapeHeaderValue_eq_self_iff (w : Bytes) :
    unescapeHeaderValue w = w ↔ ∀ b, .pair b ∈ scan w → ¬ (EscapePiece.pair b).Defined := by
  have hpieces := flatMap_eq_flatMap_iff fun p (_ : p ∈ scan w) => p.length_meaning_le
  rw [flatMap_bytes_scan, ← unescapeHeaderValue_eq] at hpieces
  rw [eq_comm, hpieces]
  constructor
  · intro h b hb hdefined
    obtain ⟨-, c, hmeaning, -⟩ := exists_of_defined_pair hdefined
    have heq := h _ hb
    rw [hmeaning, EscapePiece.bytes] at heq
    cases heq
  · intro h p hp
    cases p with
    | plain b _ => rfl
    | pair b => exact (meaning_of_not_defined (h b hp)).symm
    | trailing => rfl

/-- A value in canonical form is quoted as it was received. -/
lemma serialize_ack {headers : List Header} {w : Bytes} {id : String}
    (hw : firstValue headers (asBytes "ack") = some w) (hid : fetchHeader headers "ack" = some id)
    (hcanonical : escape (unescapeHeaderValue w) = w) (transaction : Option String)
    (extra : List Header) :
    asBytes "ACK\nid:" ++ w ++ [lf] <+:
      (Message.toFrame ⟨.ack id transaction, extra⟩).serialize := by
  rw [fetchHeader, hw, Option.bind_some, fromUtf8_eq_some] at hid
  have hescaped : headersAreEscaped (asBytes "ACK") = true := by decide
  obtain ⟨rest, hheaders⟩ : ∃ rest, (Message.toFrame ⟨.ack id transaction, extra⟩).headers =
      (asBytes "id", asBytes id) :: rest := ⟨_, rfl⟩
  have hcommand : (Message.toFrame ⟨.ack id transaction, extra⟩).command = asBytes "ACK" := rfl
  have hkey : escape (asBytes "id") = asBytes "id" := by decide
  have hvalue : escape (asBytes id) = w := by rw [← hid, hcanonical]
  have hline : Frame.serializeHeader true (asBytes "id", asBytes id) =
      asBytes "id:" ++ w ++ [lf] := by
    show escape (asBytes "id") ++ colon :: (escape (asBytes id) ++ [lf]) = _
    rw [hkey, hvalue, List.append_assoc]
    rfl
  rw [Frame.serialize, hheaders, hcommand, hescaped, List.flatMap_cons, hline]
  have hstart : asBytes "ACK\nid:" = asBytes "ACK" ++ lf :: asBytes "id:" := by decide
  rw [hstart, List.append_assoc, List.append_assoc, List.cons_append, List.append_assoc,
    ← List.append_assoc]
  exact (List.prefix_append_right_inj _).2
    ((List.prefix_cons_inj _).2 (List.prefix_append _ _))

/-- **Escaping and unescaping are inverse on exactly the canonical strings.** -/
theorem escape_inverse :
    (∀ s, (∀ b ∈ escape s, b ≠ cr ∧ b ≠ lf ∧ b ≠ colon) ∧ unescapeHeaderValue (escape s) = s) ∧
      (∀ w, escape (unescapeHeaderValue w) = w ↔
        (∀ b ∈ w, b ≠ cr ∧ b ≠ lf ∧ b ≠ colon) ∧ ∀ p ∈ scan w, p.Defined) ∧
      (∀ headers w id, firstValue headers (asBytes "ack") = some w →
        fetchHeader headers "ack" = some id →
          ((∀ b ∈ w, b ≠ cr ∧ b ≠ lf ∧ b ≠ colon) ∧ ∀ p ∈ scan w, p.Defined) →
            ∀ transaction extra, asBytes "ACK\nid:" ++ w ++ [lf] <+:
              (Message.toFrame ⟨.ack id transaction, extra⟩).serialize) ∧
      ∀ w, unescapeHeaderValue w = (scan w).flatMap EscapePiece.meaning ∧
        (scan w).flatMap EscapePiece.bytes = w ∧
          ∀ p ∈ scan w, ¬ p.Defined → p.meaning = p.bytes := by
  have hstop : ∀ b, keyStop b = false ↔ b ≠ cr ∧ b ≠ lf ∧ b ≠ colon := by
    intro b
    rw [keyStop, Bool.or_eq_false_iff, Bool.or_eq_false_iff, beq_eq_false_iff_ne,
      beq_eq_false_iff_ne, beq_eq_false_iff_ne]
    constructor
    · rintro ⟨⟨hcolon, hcr⟩, hlf⟩
      exact ⟨hcr, hlf, hcolon⟩
    · rintro ⟨hcr, hlf, hcolon⟩
      exact ⟨⟨hcolon, hcr⟩, hlf⟩
  simp only [← hstop]
  refine ⟨fun s => ⟨fun b hb => keyStop_eq_false_of_mem_escape hb, unescapeHeaderValue_escape s⟩,
    escape_unescapeHeaderValue_iff, ?_, fun w => ⟨unescapeHeaderValue_eq w, flatMap_bytes_scan w,
      fun p _ => EscapePiece.meaning_of_not_defined⟩⟩
  intro headers w id hw hid hcanonical transaction extra
  exact serialize_ack hw hid ((escape_unescapeHeaderValue_iff w).2 hcanonical) transaction extra

/-! ### UTF-8 -/

/-- What stands in front of a value makes no difference. -/
lemma validUtf8_append_unescapeHeaderValue (v xs : Bytes) :
    ValidUtf8 (xs ++ unescapeHeaderValue v) ↔ ValidUtf8 (xs ++ v) := by
  induction v using scan_induction generalizing xs with
  | nil => rfl
  | plain b rest hb ih =>
      rw [unescapeHeaderValue_cons hb, List.append_cons, ih, ← List.append_cons]
  | pair b rest ih =>
      rw [unescapeHeaderValue_pair]
      by_cases hdefined : (EscapePiece.pair b).Defined
      · -- both the sequence and what it stands for are ASCII
        obtain ⟨hb, c, hmeaning, hc, -⟩ := exists_of_defined_pair hdefined
        have hback : backslash.toNat < 128 := by decide
        have hnil := ih []
        rw [List.nil_append, List.nil_append] at hnil
        rw [hmeaning, List.singleton_append, validUtf8_append_cons hc, validUtf8_append_cons hback,
          hnil, validUtf8_cons hb]
      · rw [meaning_of_not_defined hdefined, EscapePiece.bytes, ← List.append_assoc, ih,
          List.append_assoc]
        rfl
  | trailing => rfl

/-- **Unescaping neither creates UTF-8 nor spoils it.** -/
theorem validUtf8_unescapeHeaderValue (v : Bytes) :
    ValidUtf8 (unescapeHeaderValue v) ↔ ValidUtf8 v :=
  validUtf8_append_unescapeHeaderValue v []

end AsyncStomp
