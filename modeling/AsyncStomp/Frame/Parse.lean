/-
# Parsing a frame

`parse_frame` and `parse_header`, over the parts of winnow they are put together from.
`parseThroughNul` is `parse_frame` without the optional line ends around the frame.
Those two are the only places where the end of the buffer is taken for the end of the
input, so it is `parseThroughNul` that more input does not change.
-/
import AsyncStomp.Decimal
import AsyncStomp.Frame.Basic
import AsyncStomp.PartialInput.Framing

namespace AsyncStomp

open PartialInput PartialInput.Parser

/-! ### winnow's byte parsers -/

/-- `line_ending` -/
def lineEnding : Parser UInt8 Unit := alt (literal [lf]) (literal [cr, lf])

/-- `AsChar::is_alpha` -/
def isAlpha (b : UInt8) : Bool := (65 ≤ b && b ≤ 90) || (97 ≤ b && b ≤ 122)

/-- `alpha1` -/
def alpha1 : Parser UInt8 Bytes := takeTill1 fun b => !isAlpha b

/-- The check `till_line_ending` makes where it stops: a carriage return has to be the first
half of a line end. -/
def lineEndAhead : Parser UInt8 Unit
  | [] => .ok () []
  | b :: rest =>
      if b = cr then
        match rest with
        | [] => .incomplete
        | c :: _ => if c = lf then .ok () (b :: rest) else .backtrack
      else .ok () (b :: rest)

/-- `till_line_ending` -/
def tillLineEnding : Parser UInt8 Bytes := do
  let taken ← takeTill isEol
  lineEndAhead
  pure taken

/-! ### Frames -/

/-- `get_content_length`: only the first such header counts. -/
def getContentLength (headers : List Header) : Option UInt32 :=
  (firstValue headers (asBytes "content-length")).bind fun v =>
    (fromUtf8 v).bind fun s => parseU32 (asBytes s)

/-- `is_empty_slice` -/
def isEmptySlice (s : Bytes) : Option Bytes := if s.isEmpty then none else some s

/-- `parse_header` -/
def parseHeader : Parser UInt8 Header := do
  let key ← takeTill1 keyStop
  literal [colon]
  let value ← tillLineEnding
  lineEnding
  pure (key, value)

/-- The body as `parse_frame` reads it: up to the first NUL, or as long as the headers say. -/
def parseBody (headers : List Header) : Parser UInt8 (Option Bytes) :=
  match getContentLength headers with
  | none => do
      let body ← takeTill (· == nul)
      pure (isEmptySlice body)
  | some length => do
      let body ← take length.toNat
      pure (some body)

/-- `parse_frame` from the command through the NUL. -/
def parseThroughNul : Parser UInt8 Frame := do
  let command ← alpha1
  lineEnding
  let headers ← repeat0 parseHeader
  lineEnding
  let body ← parseBody headers
  literal [nul]
  pure ⟨command, headers, body⟩

/-- `opt(line_ending.complete_err())` -/
def optLineEnding : Parser UInt8 (Option Unit) := opt (completeErr lineEnding)

/-- `parse_frame` -/
def parseFrame : Parser UInt8 Frame := do
  let _ ← optLineEnding
  let frame ← parseThroughNul
  let _ ← optLineEnding
  pure frame

/-! ### Line ends -/

/-- A line end is one of the two. -/
lemma lineEnding_eq_ok {xs rest : Bytes} {a : Unit} (h : lineEnding xs = .ok a rest) :
    xs = lf :: rest ∨ xs = cr :: lf :: rest := by
  rcases alt_eq_ok h with hlf | hcrlf
  · exact Or.inl (literal_eq_ok hlf)
  · exact Or.inr (literal_eq_ok hcrlf)

lemma stable_lineEnding : Stable lineEnding := stable_alt (stable_literal _) (stable_literal _)

/-- The bytes left behind an optional line end. -/
def dropLineEnding (xs : Bytes) : Bytes :=
  match lineEnding xs with
  | .ok _ rest => rest
  | _ => xs

lemma optLineEnding_apply (xs : Bytes) : ∃ o, optLineEnding xs = .ok o (dropLineEnding xs) := by
  rw [optLineEnding, opt, completeErr, dropLineEnding]
  cases lineEnding xs with
  | ok a rest => exact ⟨some a, rfl⟩
  | incomplete => exact ⟨none, rfl⟩
  | backtrack => exact ⟨none, rfl⟩

/-- An optional line end takes nothing but bytes that end a line. -/
lemma dropLineEnding_spec (xs : Bytes) :
    ∃ eol, xs = eol ++ dropLineEnding xs ∧ ∀ b ∈ eol, isEol b = true := by
  rw [dropLineEnding]
  cases h : lineEnding xs with
  | ok a rest =>
      rcases lineEnding_eq_ok h with hlf | hcrlf
      · exact ⟨[lf], hlf, by simp [isEol]⟩
      · exact ⟨[cr, lf], hcrlf, by simp [isEol]⟩
  | incomplete => exact ⟨[], rfl, by simp⟩
  | backtrack => exact ⟨[], rfl, by simp⟩

lemma dropWhile_dropLineEnding (xs : Bytes) :
    (dropLineEnding xs).dropWhile isEol = xs.dropWhile isEol := by
  obtain ⟨eol, hxs, heol⟩ := dropLineEnding_spec xs
  conv_rhs => rw [hxs]
  exact (dropWhile_append_of_nil (List.dropWhile_eq_nil_iff.2 heol) _).symm

/-- Where no line end is ahead, an optional one takes nothing. -/
lemma dropLineEnding_of_dropWhile {xs : Bytes} (h : xs.dropWhile isEol = xs) :
    dropLineEnding xs = xs := by
  have hle := length_dropWhile_le isEol (dropLineEnding xs)
  rw [dropWhile_dropLineEnding, h] at hle
  obtain ⟨eol, hxs, -⟩ := dropLineEnding_spec xs
  have hlen := congrArg List.length hxs
  rw [List.length_append] at hlen
  have hnil : eol = [] := List.length_eq_zero_iff.1 (by omega)
  rw [hnil, List.nil_append] at hxs
  exact hxs.symm

/-! ### The end of a header line -/

lemma tillLineEnding_lf {value : Bytes} (h : ∀ b ∈ value, isEol b = false) (ys : Bytes) :
    tillLineEnding (value ++ lf :: ys) = .ok value (lf :: ys) := by
  rw [tillLineEnding, bind_of_ok (takeTill_append ys h rfl)]
  rfl

lemma tillLineEnding_crlf {value : Bytes} (h : ∀ b ∈ value, isEol b = false) (ys : Bytes) :
    tillLineEnding (value ++ cr :: lf :: ys) = .ok value (cr :: lf :: ys) := by
  rw [tillLineEnding, bind_of_ok (takeTill_append (lf :: ys) h rfl)]
  rfl

lemma lineEndAhead_eq_ok {xs rest : Bytes} {a : Unit} (h : lineEndAhead xs = .ok a rest) :
    rest = xs := by
  unfold lineEndAhead at h
  split at h
  · simp_all
  · split at h
    · split at h
      · cases h
      · split at h <;> simp_all
    · simp_all

lemma tillLineEnding_eq_ok {xs value rest : Bytes} (h : tillLineEnding xs = .ok value rest) :
    takeTill isEol xs = .ok value rest := by
  obtain ⟨taken, mid, htill, hahead⟩ := bind_eq_ok_iff.1 h
  obtain ⟨u, mid', hpeek, hpure⟩ := bind_eq_ok_iff.1 hahead
  cases hpure
  rw [htill, lineEndAhead_eq_ok hpeek]

/-- The check looks two bytes ahead at most. -/
lemma lineEndAhead_append {xs ys : Bytes} (hne : xs ≠ []) (h : lineEndAhead xs ≠ .incomplete) :
    lineEndAhead (xs ++ ys) = match lineEndAhead xs with
      | .ok a rest => .ok a (rest ++ ys)
      | .incomplete => .incomplete
      | .backtrack => .backtrack := by
  match xs with
  | [b] =>
      by_cases hb : b = cr
      · exact absurd (by simp [lineEndAhead, hb]) h
      · simp [lineEndAhead, hb]
  | b :: c :: rest =>
      by_cases hb : b = cr
      · by_cases hc : c = lf <;> simp [lineEndAhead, hb, hc]
      · simp [lineEndAhead, hb]

lemma stable_tillLineEnding : Stable tillLineEnding := by
  -- where the bytes of the line have been taken something is left, so the check is stable there
  have key : ∀ {xs : Bytes}, tillLineEnding xs ≠ .incomplete → ∀ ys,
      tillLineEnding (xs ++ ys) = match tillLineEnding xs with
        | .ok a rest => .ok a (rest ++ ys)
        | .incomplete => .incomplete
        | .backtrack => .backtrack := by
    intro xs hxs ys
    cases htill : takeTill isEol xs with
    | ok taken mid =>
        obtain ⟨-, -, y, rest, hmid, -⟩ := takeTill_eq_ok htill
        have hext := (stable_takeTill isEol).ok htill ys
        rw [tillLineEnding, bind_of_ok htill] at hxs
        rw [tillLineEnding, bind_of_ok htill, bind_of_ok hext]
        have hahead : lineEndAhead mid ≠ .incomplete := by
          intro hinc
          exact hxs (bind_of_incomplete hinc)
        rw [bind_apply, bind_apply, lineEndAhead_append (by simp [hmid]) hahead]
        cases lineEndAhead mid <;> rfl
    | incomplete => exact absurd (bind_of_incomplete htill) hxs
    | backtrack => exact absurd htill (takeTill_ne_backtrack _ _)
  constructor
  · intro xs rest value h ys
    rw [key (by rw [h]; simp) ys, h]
  · intro xs h ys
    rw [key (by rw [h]; simp) ys, h]

/-! ### Stability -/

lemma stable_parseHeader : Stable parseHeader :=
  stable_bind (stable_takeTill1 _) fun _ => stable_bind (stable_literal _) fun _ =>
    stable_bind stable_tillLineEnding fun _ => stable_bind stable_lineEnding fun _ => stable_pure _

lemma stable_parseBody (headers : List Header) : Stable (parseBody headers) := by
  rw [parseBody]
  cases getContentLength headers with
  | none => exact stable_bind (stable_takeTill _) fun _ => stable_pure _
  | some length => exact stable_bind (stable_take _) fun _ => stable_pure _

/-- **More bytes change what is read only where a frame was unfinished.** -/
theorem stable_parseThroughNul : Stable parseThroughNul :=
  stable_bind (stable_takeTill1 _) fun _ => stable_bind stable_lineEnding fun _ =>
    stable_bind (stable_repeat0 stable_parseHeader) fun headers =>
      stable_bind stable_lineEnding fun _ => stable_bind (stable_parseBody headers) fun _ =>
        stable_bind (stable_literal _) fun _ => stable_pure _

@[simp] lemma parseThroughNul_nil : parseThroughNul [] = .incomplete := rfl

/-! ### `parse_frame` and `parseThroughNul` -/

/-- The two optional line ends around the frame. -/
lemma parseFrame_apply (xs : Bytes) :
    parseFrame xs = match parseThroughNul (dropLineEnding xs) with
      | .ok frame rest => .ok frame (dropLineEnding rest)
      | .incomplete => .incomplete
      | .backtrack => .backtrack := by
  obtain ⟨o, ho⟩ := optLineEnding_apply xs
  rw [parseFrame, bind_of_ok ho]
  cases h : parseThroughNul (dropLineEnding xs) with
  | ok frame rest =>
      obtain ⟨o', ho'⟩ := optLineEnding_apply rest
      rw [bind_of_ok h, bind_of_ok ho']
      rfl
  | incomplete => rw [bind_of_incomplete h]
  | backtrack => rw [bind_of_backtrack h]

/-- A frame is read where there is one between the two. -/
lemma parseFrame_eq_ok_iff {xs rest : Bytes} {f : Frame} :
    parseFrame xs = .ok f rest ↔
      ∃ mid, parseThroughNul (dropLineEnding xs) = .ok f mid ∧ rest = dropLineEnding mid := by
  rw [parseFrame_apply]
  cases parseThroughNul (dropLineEnding xs) with
  | ok g mid =>
      constructor
      · rintro ⟨⟩
        exact ⟨mid, rfl, rfl⟩
      · rintro ⟨mid', ⟨⟩, rfl⟩
        rfl
  | incomplete => simp
  | backtrack => simp

end AsyncStomp
