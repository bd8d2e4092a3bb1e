/-
# The measure of a body

A `content-length` that is no number is treated as none at all: the body then ends at its
first NUL, whatever was announced.  `lengthHonoured_iff` says for which values a declared
length is honoured or the frame refused.
-/
import AsyncStomp.Frame.Grammar

namespace AsyncStomp

open PartialInput PartialInput.Parser

/-- The lines of a frame in front of its body. -/
structure HeaderBlock where
  command : Bytes
  commandEol : Eol
  headers : List HeaderLine
  blank : Eol
  command_ne : command ≠ []
  command_alpha : ∀ b ∈ command, isAlpha b = true

namespace HeaderBlock

/-- The bytes of the lines. -/
def bytes (b : HeaderBlock) : Bytes :=
  b.command ++ (b.commandEol.bytes ++ (b.headers.flatMap HeaderLine.bytes ++ b.blank.bytes))

/-- The first value under `content-length`. -/
def length? (b : HeaderBlock) : Option Bytes :=
  firstValue (b.headers.map HeaderLine.header) (asBytes "content-length")

/-- A line end in front of the command makes no difference. -/
lemma dropLineEnding_bytes (b : HeaderBlock) (lead : Option Eol) (tail : Bytes) :
    dropLineEnding (lead.elim [] Eol.bytes ++ (b.bytes ++ tail)) = b.bytes ++ tail := by
  cases lead with
  | none =>
      rw [Option.elim_none, List.nil_append, bytes, List.append_assoc]
      exact dropLineEnding_of_dropWhile (dropWhile_command b.command_ne b.command_alpha _)
  | some e => rw [Option.elim_some, dropLineEnding, lineEnding_bytes]

/-- What becomes of the input is decided behind the lines. -/
lemma parseFrame_bytes (b : HeaderBlock) (lead : Option Eol) (tail : Bytes) :
    (parseFrame (lead.elim [] Eol.bytes ++ (b.bytes ++ tail)) = .backtrack ↔
        parseEnd b.command (b.headers.map HeaderLine.header) tail = .backtrack) ∧
      ∀ f, (∃ rest, parseFrame (lead.elim [] Eol.bytes ++ (b.bytes ++ tail)) = .ok f rest) ↔
        ∃ rest, parseEnd b.command (b.headers.map HeaderLine.header) tail = .ok f rest := by
  have hlines : parseThroughNul (b.bytes ++ tail) =
      parseEnd b.command (b.headers.map HeaderLine.header) tail := by
    rw [bytes]
    simp only [List.append_assoc]
    exact parseThroughNul_lines b.command_ne b.command_alpha _ _ _ _
  rw [parseFrame_apply, dropLineEnding_bytes, hlines]
  cases parseEnd b.command (b.headers.map HeaderLine.header) tail <;> simp

end HeaderBlock

/-- The declared length is what is parsed of the value; only ASCII is. -/
lemma getContentLength_eq {headers : List Header} {v : Bytes}
    (hv : firstValue headers (asBytes "content-length") = some v) :
    getContentLength headers = parseU32 v := by
  rw [getContentLength, hv, Option.bind_some]
  cases hutf8 : fromUtf8 v with
  | some s => rw [Option.bind_some, fromUtf8_eq_some.1 hutf8]
  | none =>
      rw [Option.bind_none]
      cases hn : parseU32 v with
      | none => rfl
      | some n =>
          -- digits and a plus sign are ASCII
          obtain ⟨ds, hds, hdigits⟩ := parseU32_eq_some_iff.1 hn
          have hascii : ∀ b ∈ plus :: ds, b.toNat < 128 := by
            intro b hb
            rcases List.mem_cons.1 hb with rfl | hb
            · decide
            · have hle := (hdigits.digit b hb).2
              omega
          refine absurd (validUtf8_of_lt fun b hb => hascii b ?_) (fromUtf8_eq_none.1 hutf8)
          rcases hds with rfl | rfl
          · exact List.mem_cons_of_mem _ hb
          · exact hb

/-- Of an input that declares the length `v` of its body: a frame that is returned has a body of
that length, and is not returned at all if `v` is no number. -/
structure LengthHonoured (xs v : Bytes) : Prop where
  length_eq : ∀ f rest, parseFrame xs = .ok f rest →
    ∃ n body, Digits v n ∧ f.body = some body ∧ body.length = n.toNat
  refused : (¬ ∃ n, Digits v n) → parseFrame xs = .backtrack

/-- What stands `n` bytes on is there, and is no NUL. -/
def MissesNul (tail : Bytes) (n : UInt32) : Prop := ∃ c, tail[n.toNat]? = some c ∧ c ≠ nul

section Tail

variable {command : Bytes} {headers : List Header} {tail : Bytes}

/-- Without a measure any NUL will do. -/
lemma parseEnd_of_none (h : getContentLength headers = none) :
    parseEnd command headers tail ≠ .backtrack := by
  intro hback
  rw [parseEnd, parseBody, h] at hback
  rcases bind_eq_backtrack_iff.1 hback with hbody | ⟨body, mid, hbody, hnul⟩
  · rcases bind_eq_backtrack_iff.1 hbody with htill | ⟨_, _, -, ⟨⟩⟩
    exact takeTill_ne_backtrack _ _ htill
  · obtain ⟨taken, mid', htill, hpure⟩ := bind_eq_ok_iff.1 hbody
    cases hpure
    obtain ⟨-, -, y, ys, rfl, hy⟩ := takeTill_eq_ok htill
    have hliteral : literal [nul] (y :: ys) = .ok () ys := by
      rw [eq_of_beq hy]
      exact literal_append [nul] ys
    rw [bind_of_ok hliteral] at hnul
    cases hnul

/-- With a measure it is the byte behind the body that decides. -/
lemma parseEnd_of_some {n : UInt32} (h : getContentLength headers = some n) :
    (parseEnd command headers tail = .backtrack ↔ MissesNul tail n) ∧
      ∀ f rest, parseEnd command headers tail = .ok f rest →
          ∃ body, f.body = some body ∧ body.length = n.toNat := by
  have hget : tail[n.toNat]? = (tail.drop n.toNat).head? := List.head?_drop.symm
  rw [parseEnd, parseBody, h, MissesNul, hget]
  by_cases hlen : n.toNat ≤ tail.length
  · have hbody :
        (take n.toNat >>= fun body => pure (some body) : Parser UInt8 (Option Bytes)) tail =
          .ok (some (tail.take n.toNat)) (tail.drop n.toNat) := by
      have htake : take n.toNat tail = .ok (tail.take n.toNat) (tail.drop n.toNat) := if_pos hlen
      exact bind_of_ok htake
    have hlength : (tail.take n.toNat).length = n.toNat := List.length_take_of_le hlen
    simp only [bind_of_ok hbody]
    cases hdrop : tail.drop n.toNat with
    | nil =>
        -- the body is there, but not the byte behind it
        refine ⟨⟨?_, ?_⟩, ?_⟩
        · rintro ⟨⟩
        · rintro ⟨c, ⟨⟩, -⟩
        · rintro f rest ⟨⟩
    | cons c cs =>
        by_cases hc : c = nul
        · have hliteral : literal [nul] (c :: cs) = .ok () cs := by
            rw [hc]
            exact literal_append [nul] cs
          rw [bind_of_ok hliteral]
          refine ⟨⟨?_, ?_⟩, ?_⟩
          · rintro ⟨⟩
          · rintro ⟨d, ⟨⟩, hd⟩
            exact absurd hc hd
          · rintro f rest ⟨⟩
            exact ⟨_, rfl, hlength⟩
        · have hliteral : literal [nul] (c :: cs) = .backtrack := by rw [literal, if_neg hc]
          rw [bind_of_backtrack hliteral]
          refine ⟨⟨fun _ => ⟨c, rfl, hc⟩, fun _ => rfl⟩, ?_⟩
          rintro f rest ⟨⟩
  · have hbody :
        (take n.toNat >>= fun body => pure (some body) : Parser UInt8 (Option Bytes)) tail =
          .incomplete := by
      have htake : take n.toNat tail = .incomplete := if_neg hlen
      exact bind_of_incomplete htake
    have hdrop : tail.drop n.toNat = [] := List.drop_eq_nil_of_le (by omega)
    rw [bind_of_incomplete hbody, hdrop]
    refine ⟨⟨?_, ?_⟩, ?_⟩
    · rintro ⟨⟩
    · rintro ⟨c, ⟨⟩, -⟩
    · rintro f rest ⟨⟩

end Tail

/-- **Which lengths are honoured**: those given by digits; a number with a plus sign only where no
NUL ends the body and the frame is refused for that. -/
theorem lengthHonoured_iff (lead : Option Eol) (b : HeaderBlock) (tail v : Bytes)
    (hv : b.length? = some v) :
    LengthHonoured (lead.elim [] Eol.bytes ++ (b.bytes ++ tail)) v ↔
      (∃ n, Digits v n) ∨ ∃ ds n, v = plus :: ds ∧ Digits ds n ∧ MissesNul tail n := by
  obtain ⟨hback, hok⟩ := b.parseFrame_bytes lead tail
  have hlen := getContentLength_eq hv
  constructor
  · intro h
    by_cases hdigits : ∃ n, Digits v n
    · exact Or.inl hdigits
    · -- without digits the frame is refused, which can only be for the NUL that is missing
      have hend := hback.1 (h.refused hdigits)
      cases hn : parseU32 v with
      | none =>
          rw [hn] at hlen
          exact absurd hend (parseEnd_of_none hlen)
      | some n =>
          rw [hn] at hlen
          obtain ⟨ds, rfl | rfl, hds⟩ := parseU32_eq_some_iff.1 hn
          · exact absurd ⟨n, hds⟩ hdigits
          · exact Or.inr ⟨ds, n, rfl, hds, (parseEnd_of_some hlen).1.1 hend⟩
  · rintro (⟨n, hdigits⟩ | ⟨ds, n, rfl, hds, hmiss⟩)
    · rw [hdigits.parseU32] at hlen
      refine ⟨fun f rest hf => ?_, fun hnot => absurd ⟨n, hdigits⟩ hnot⟩
      obtain ⟨rest', hend⟩ := (hok f).1 ⟨rest, hf⟩
      obtain ⟨body, hbody, hlength⟩ := (parseEnd_of_some hlen).2 f rest' hend
      exact ⟨n, body, hdigits, hbody, hlength⟩
    · rw [parseU32_eq_some_iff.2 ⟨ds, Or.inr rfl, hds⟩] at hlen
      have hrefused := hback.2 ((parseEnd_of_some hlen).1.2 hmiss)
      refine ⟨fun f rest hf => ?_, fun _ => hrefused⟩
      rw [hrefused] at hf
      cases hf

/-- The lines of a SEND with the length `+1`. -/
def signedBlock : HeaderBlock where
  command := asBytes "SEND"
  commandEol := .lf
  headers := [⟨asBytes "content-length", asBytes "+1", .lf, by decide, by decide +kernel,
    by decide +kernel⟩]
  blank := .lf
  command_ne := by decide
  command_alpha := by decide +kernel

theorem lengthHonoured_iff_signedBlock :
    LengthHonoured ([] ++ (signedBlock.bytes ++ asBytes "ab\x00")) (asBytes "+1") ↔
      (∃ n, Digits (asBytes "+1") n) ∨ ∃ ds n, asBytes "+1" = plus :: ds ∧ Digits ds n ∧
        MissesNul (asBytes "ab\x00") n :=
  lengthHonoured_iff none signedBlock (asBytes "ab\x00") (asBytes "+1") (by decide)

/-- **A length with a blank in front is ignored**: the body ends at its first NUL, and what follows
is left for another frame. -/
theorem blank_length_is_ignored :
    let xs := asBytes "SEND\ncontent-length: 3\n\na\x00b\x00"
    parseFrame xs = .ok ⟨asBytes "SEND", [(asBytes "content-length", asBytes " 3")],
        some (asBytes "a")⟩ (asBytes "b\x00") ∧
      ¬ LengthHonoured xs (asBytes " 3") := by
  have hparse : parseFrame (asBytes "SEND\ncontent-length: 3\n\na\x00b\x00") =
      .ok ⟨asBytes "SEND", [(asBytes "content-length", asBytes " 3")], some (asBytes "a")⟩
        (asBytes "b\x00") := by
    decide +kernel
  refine ⟨hparse, fun h => ?_⟩
  obtain ⟨n, -, hdigits, -⟩ := h.length_eq _ _ hparse
  exact absurd (hdigits.digit 32 (by decide)).1 (by decide)

end AsyncStomp
