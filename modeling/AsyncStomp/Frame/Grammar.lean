/-
# The grammar of frames

A `WireFrame` is a frame as the wire grammar derives it: every line with its own line
end, a body that the headers measure or that holds no NUL, and the terminating NUL.
`parseThroughNul` accepts exactly the bytes of such frames
(`parseThroughNul_eq_ok_iff`).
-/
import AsyncStomp.Frame.Parse

namespace AsyncStomp

open PartialInput PartialInput.Parser

/-- A line end on the wire. -/
inductive Eol where
  | lf
  | crlf
deriving DecidableEq, Repr

/-- The bytes of a line end. -/
def Eol.bytes : Eol → Bytes
  | .lf => [AsyncStomp.lf]
  | .crlf => [cr, AsyncStomp.lf]

lemma Eol.isEol_of_mem (e : Eol) : ∀ b ∈ e.bytes, isEol b = true := by
  cases e <;> simp [Eol.bytes, isEol]

@[simp] lemma lineEnding_bytes (e : Eol) (ys : Bytes) : lineEnding (e.bytes ++ ys) = .ok () ys := by
  cases e <;> rfl

lemma exists_eol_of_lineEnding {xs rest : Bytes} {a : Unit} (h : lineEnding xs = .ok a rest) :
    ∃ e : Eol, xs = e.bytes ++ rest := by
  rcases lineEnding_eq_ok h with hlf | hcrlf
  · exact ⟨.lf, hlf⟩
  · exact ⟨.crlf, hcrlf⟩

/-- A header line: a key that is not empty and stops at nothing, a colon and a value. -/
structure HeaderLine where
  key : Bytes
  value : Bytes
  eol : Eol
  key_ne : key ≠ []
  key_stop : ∀ b ∈ key, keyStop b = false
  value_eol : ∀ b ∈ value, isEol b = false

namespace HeaderLine

/-- The header a line carries. -/
def header (l : HeaderLine) : Header := (l.key, l.value)

/-- The bytes of a header line. -/
def bytes (l : HeaderLine) : Bytes := l.key ++ colon :: (l.value ++ l.eol.bytes)

lemma parseHeader_bytes (l : HeaderLine) (ys : Bytes) :
    parseHeader (l.bytes ++ ys) = .ok l.header ys := by
  have hkey : takeTill1 keyStop (l.bytes ++ ys) =
      .ok l.key (colon :: (l.value ++ (l.eol.bytes ++ ys))) := by
    simp only [bytes, List.append_assoc, List.cons_append]
    exact takeTill1_append _ l.key_ne l.key_stop rfl
  have hvalue : tillLineEnding (l.value ++ (l.eol.bytes ++ ys)) =
      .ok l.value (l.eol.bytes ++ ys) := by
    cases l.eol with
    | lf => exact tillLineEnding_lf l.value_eol ys
    | crlf => exact tillLineEnding_crlf l.value_eol ys
  rw [parseHeader, bind_of_ok hkey]
  have hcolon := literal_append [colon] (l.value ++ (l.eol.bytes ++ ys))
  rw [List.singleton_append] at hcolon
  rw [bind_of_ok hcolon, bind_of_ok hvalue, bind_of_ok (lineEnding_bytes _ _)]
  rfl

/-- A header that was parsed stood on a header line. -/
lemma exists_of_parseHeader {xs rest : Bytes} {h : Header} (hp : parseHeader xs = .ok h rest) :
    ∃ l : HeaderLine, xs = l.bytes ++ rest ∧ l.header = h := by
  obtain ⟨key, xs₁, hkey, hp⟩ := bind_eq_ok_iff.1 hp
  obtain ⟨u, xs₂, hcolon, hp⟩ := bind_eq_ok_iff.1 hp
  obtain ⟨value, xs₃, hvalue, hp⟩ := bind_eq_ok_iff.1 hp
  obtain ⟨u', xs₄, heol, hp⟩ := bind_eq_ok_iff.1 hp
  cases hp
  obtain ⟨hkey, hne⟩ := takeTill1_eq_ok hkey
  obtain ⟨rfl, hkeystop, -⟩ := takeTill_eq_ok hkey
  obtain ⟨rfl, hvaluestop, -⟩ := takeTill_eq_ok (tillLineEnding_eq_ok hvalue)
  obtain ⟨e, rfl⟩ := exists_eol_of_lineEnding heol
  have hx := literal_eq_ok hcolon
  subst hx
  exact ⟨⟨key, value, e, hne, hkeystop, hvaluestop⟩, by simp [bytes], rfl⟩

lemma length_bytes_pos (l : HeaderLine) : 0 < l.bytes.length := by
  rw [bytes, List.length_append, List.length_cons]
  omega

end HeaderLine

/-- No header line begins with a line end. -/
lemma parseHeader_eol (e : Eol) (ys : Bytes) : parseHeader (e.bytes ++ ys) = .backtrack := by
  cases e <;> exact bind_of_backtrack (takeTill1_stop _ rfl)

lemma repeat0_parseHeader (ls : List HeaderLine) (e : Eol) (ys : Bytes) :
    repeat0 parseHeader (ls.flatMap HeaderLine.bytes ++ (e.bytes ++ ys)) =
      .ok (ls.map HeaderLine.header) (e.bytes ++ ys) := by
  induction ls with
  | nil => exact repeat0_of_backtrack (parseHeader_eol e ys)
  | cons l ls ih =>
      have hpos := l.length_bytes_pos
      rw [List.flatMap_cons, List.append_assoc]
      refine repeat0_of_ok (l.parseHeader_bytes _) ?_ ih
      simp only [List.length_append]
      omega

lemma exists_lines_of_repeat0 {hs : List Header} {xs rest : Bytes}
    (h : repeat0 parseHeader xs = .ok hs rest) :
    ∃ ls : List HeaderLine, xs = ls.flatMap HeaderLine.bytes ++ rest ∧
      ls.map HeaderLine.header = hs := by
  induction hs generalizing xs with
  | nil =>
      rw [repeat0_apply] at h
      cases hp : parseHeader xs with
      | ok a mid =>
          rw [hp] at h
          by_cases hlt : mid.length < xs.length
          · simp [hlt] at h
          · simp [hlt] at h
      | incomplete => simp [hp] at h
      | backtrack =>
          rw [hp] at h
          cases h
          exact ⟨[], rfl, rfl⟩
  | cons hd hs ih =>
      rw [repeat0_apply] at h
      cases hp : parseHeader xs with
      | ok a mid =>
          rw [hp] at h
          -- a repetition that consumes nothing is refused
          by_cases hlt : mid.length < xs.length
          · simp only [if_pos hlt] at h
            obtain ⟨bs, hrec, hbs⟩ := Result.map_eq_ok.1 h
            obtain ⟨rfl, rfl⟩ := List.cons.inj hbs
            obtain ⟨l, rfl, rfl⟩ := HeaderLine.exists_of_parseHeader hp
            obtain ⟨ls, rfl, rfl⟩ := ih hrec
            exact ⟨l :: ls, by simp, rfl⟩
          · simp [hlt] at h
      | incomplete => simp [hp] at h
      | backtrack => simp [hp] at h

/-! ### Bodies -/

/-- A body the parser finds the end of: as long as `content-length` says, or without NUL. -/
def BodyFits (headers : List Header) (body : Bytes) : Prop :=
  match getContentLength headers with
  | none => nul ∉ body
  | some length => body.length = length.toNat

/-- The body a frame is given: an empty one is absent unless its length was announced. -/
def bodyOf (headers : List Header) (body : Bytes) : Option Bytes :=
  match getContentLength headers with
  | none => isEmptySlice body
  | some _ => some body

lemma BodyFits.of_none {headers : List Header} {body : Bytes}
    (h : getContentLength headers = none) (hbody : nul ∉ body) : BodyFits headers body := by
  rw [BodyFits, h]
  exact hbody

lemma BodyFits.of_some {headers : List Header} {body : Bytes} {n : UInt32}
    (h : getContentLength headers = some n) (hbody : body.length = n.toNat) :
    BodyFits headers body := by
  rw [BodyFits, h]
  exact hbody

lemma parseBody_append {headers : List Header} {body : Bytes} (h : BodyFits headers body)
    (ys : Bytes) :
    parseBody headers (body ++ nul :: ys) = .ok (bodyOf headers body) (nul :: ys) := by
  rw [BodyFits] at h
  rw [parseBody, bodyOf]
  cases hlen : getContentLength headers with
  | none =>
      simp only [hlen] at h
      have htill : takeTill (· == nul) (body ++ nul :: ys) = .ok body (nul :: ys) := by
        refine takeTill_append ys (fun b hb => ?_) rfl
        rw [beq_eq_false_iff_ne]
        rintro rfl
        exact h hb
      exact bind_of_ok htill
  | some length =>
      simp only [hlen] at h
      have htake := take_append body (nul :: ys)
      rw [h] at htake
      exact bind_of_ok htake

lemma exists_body_of_parseBody {headers : List Header} {b : Option Bytes} {xs rest : Bytes}
    (h : parseBody headers xs = .ok b rest) :
    ∃ body, xs = body ++ rest ∧ BodyFits headers body ∧ b = bodyOf headers body := by
  rw [parseBody] at h
  cases hlen : getContentLength headers with
  | none =>
      simp only [hlen] at h
      obtain ⟨body, mid, htill, hpure⟩ := bind_eq_ok_iff.1 h
      cases hpure
      obtain ⟨hxs, hnul, -⟩ := takeTill_eq_ok htill
      refine ⟨body, hxs, BodyFits.of_none hlen fun hmem => ?_, by simp [bodyOf, hlen]⟩
      have := hnul nul hmem
      simp at this
  | some length =>
      simp only [hlen] at h
      obtain ⟨body, mid, htake, hpure⟩ := bind_eq_ok_iff.1 h
      cases hpure
      obtain ⟨hxs, hbody⟩ := take_eq_ok htake
      exact ⟨body, hxs, BodyFits.of_some hlen hbody, by simp [bodyOf, hlen]⟩

/-! ### Frames -/

/-- A letter ends no line. -/
lemma isEol_of_isAlpha {b : UInt8} (h : isAlpha b = true) : isEol b = false := by
  rw [isEol, Bool.or_eq_false_iff, beq_eq_false_iff_ne, beq_eq_false_iff_ne]
  constructor
  · rintro rfl
    exact absurd h (by decide)
  · rintro rfl
    exact absurd h (by decide)

/-- A command does not begin with a line end. -/
lemma dropWhile_command {command : Bytes} (hne : command ≠ [])
    (halpha : ∀ b ∈ command, isAlpha b = true) (ys : Bytes) :
    (command ++ ys).dropWhile isEol = command ++ ys := by
  obtain ⟨b, bs, rfl⟩ := List.exists_cons_of_ne_nil hne
  have hb : isEol b = false := isEol_of_isAlpha (halpha b (by simp))
  exact List.dropWhile_cons_of_neg (by simp [hb])

/-- What is read of a frame behind its blank line. -/
def parseEnd (command : Bytes) (headers : List Header) : Parser UInt8 Frame := do
  let body ← parseBody headers
  literal [nul]
  pure ⟨command, headers, body⟩

/-- What is read of a frame up to its body: the lines of a command, of headers and a blank one. -/
lemma parseThroughNul_lines {command : Bytes} (hne : command ≠ [])
    (halpha : ∀ b ∈ command, isAlpha b = true) (commandEol : Eol) (ls : List HeaderLine)
    (blank : Eol) (tail : Bytes) :
    parseThroughNul (command ++ (commandEol.bytes ++
        (ls.flatMap HeaderLine.bytes ++ (blank.bytes ++ tail)))) =
      parseEnd command (ls.map HeaderLine.header) tail := by
  have hcommand : ∀ tail, alpha1 (command ++ (commandEol.bytes ++ tail)) =
      .ok command (commandEol.bytes ++ tail) := by
    intro tail
    have hstop : ∀ b ∈ command, (!isAlpha b) = false := fun b hb => by simp [halpha b hb]
    cases commandEol with
    | lf => exact takeTill1_append tail hne hstop rfl
    | crlf => exact takeTill1_append (lf :: tail) hne hstop rfl
  rw [parseThroughNul, bind_of_ok (hcommand _), bind_of_ok (lineEnding_bytes _ _),
    bind_of_ok (repeat0_parseHeader _ _ _), bind_of_ok (lineEnding_bytes _ _)]
  rfl

/-- A frame of the wire grammar. -/
structure WireFrame where
  command : Bytes
  commandEol : Eol
  headers : List HeaderLine
  blank : Eol
  body : Bytes
  command_ne : command ≠ []
  command_alpha : ∀ b ∈ command, isAlpha b = true
  body_fits : BodyFits (headers.map HeaderLine.header) body

namespace WireFrame

/-- The bytes of a frame, from the command through the NUL. -/
def bytes (w : WireFrame) : Bytes :=
  w.command ++ (w.commandEol.bytes ++
    (w.headers.flatMap HeaderLine.bytes ++ (w.blank.bytes ++ (w.body ++ [nul]))))

/-- What a frame of the grammar stands for. -/
def frame (w : WireFrame) : Frame :=
  ⟨w.command, w.headers.map HeaderLine.header,
    bodyOf (w.headers.map HeaderLine.header) w.body⟩

lemma parseThroughNul_bytes (w : WireFrame) (ys : Bytes) :
    parseThroughNul (w.bytes ++ ys) = .ok w.frame ys := by
  have hnul := literal_append [nul] ys
  rw [List.singleton_append] at hnul
  simp only [bytes, List.append_assoc, List.singleton_append]
  rw [parseThroughNul_lines w.command_ne w.command_alpha, parseEnd,
    bind_of_ok (parseBody_append w.body_fits _), bind_of_ok hnul]
  rfl

lemma length_bytes_pos (w : WireFrame) : 0 < w.bytes.length := by
  have hcommand := List.length_pos_iff.2 w.command_ne
  rw [bytes, List.length_append]
  omega

/-- A frame does not begin with a line end. -/
lemma dropWhile_bytes (w : WireFrame) (ys : Bytes) :
    (w.bytes ++ ys).dropWhile isEol = w.bytes ++ ys := by
  rw [bytes, List.append_assoc]
  exact dropWhile_command w.command_ne w.command_alpha _

end WireFrame

/-- **The parser accepts exactly the frames of the grammar**, and stops behind their NUL. -/
theorem parseThroughNul_eq_ok_iff {xs rest : Bytes} {f : Frame} :
    parseThroughNul xs = .ok f rest ↔ ∃ w : WireFrame, xs = w.bytes ++ rest ∧ w.frame = f := by
  constructor
  · intro h
    obtain ⟨command, xs₁, hcommand, h⟩ := bind_eq_ok_iff.1 h
    obtain ⟨u₁, xs₂, heol, h⟩ := bind_eq_ok_iff.1 h
    obtain ⟨headers, xs₃, hheaders, h⟩ := bind_eq_ok_iff.1 h
    obtain ⟨u₂, xs₄, hblank, h⟩ := bind_eq_ok_iff.1 h
    obtain ⟨body, xs₅, hbody, h⟩ := bind_eq_ok_iff.1 h
    obtain ⟨u₃, xs₆, hnul, h⟩ := bind_eq_ok_iff.1 h
    cases h
    obtain ⟨hcommand, hne⟩ := takeTill1_eq_ok hcommand
    obtain ⟨rfl, halpha, -⟩ := takeTill_eq_ok hcommand
    obtain ⟨e, rfl⟩ := exists_eol_of_lineEnding heol
    obtain ⟨ls, rfl, rfl⟩ := exists_lines_of_repeat0 hheaders
    obtain ⟨blank, rfl⟩ := exists_eol_of_lineEnding hblank
    obtain ⟨bytes, rfl, hfits, rfl⟩ := exists_body_of_parseBody hbody
    have hx := literal_eq_ok hnul
    subst hx
    exact ⟨⟨command, e, ls, blank, bytes, hne, fun b hb => by simpa using halpha b hb, hfits⟩,
      by simp [WireFrame.bytes], rfl⟩
  · rintro ⟨w, rfl, rfl⟩
    exact w.parseThroughNul_bytes rest

lemma consumes_parseThroughNul : Consumes parseThroughNul := by
  constructor
  intro xs rest f h
  obtain ⟨w, rfl, -⟩ := parseThroughNul_eq_ok_iff.1 h
  exact ⟨w.bytes, List.ne_nil_of_length_pos w.length_bytes_pos, rfl⟩

/-- Nothing behind the NUL takes part in reading a frame. -/
lemma exact_parseThroughNul : Exact parseThroughNul := by
  constructor
  intro used rest f h
  obtain ⟨w, heq, hw⟩ := parseThroughNul_eq_ok_iff.1 h
  have hused := List.append_cancel_right heq
  have hparse := w.parseThroughNul_bytes []
  rwa [List.append_nil, ← hused, hw] at hparse

/-! ### Streams of frames -/

lemma consumes_parseFrame : Consumes parseFrame := by
  constructor
  intro xs rest f h
  obtain ⟨mid, hp, rfl⟩ := parseFrame_eq_ok_iff.1 h
  obtain ⟨pre, hpre, -⟩ := dropLineEnding_spec xs
  obtain ⟨used, hne, hused⟩ := consumes_parseThroughNul.split hp
  obtain ⟨post, hpost, -⟩ := dropLineEnding_spec mid
  refine ⟨pre ++ used ++ post, by simp [hne], ?_⟩
  rw [List.append_assoc, List.append_assoc, ← hpost, ← hused, ← hpre]

/-- **The optional line ends make no difference to a stream**: what `parse_frame` takes behind a
frame would have been skipped in front of the next one. -/
theorem frames_parseFrame (xs : Bytes) :
    frames isEol parseFrame xs = frames isEol parseThroughNul xs := by
  have hstart : ∀ xs : Bytes, dropLineEnding (xs.dropWhile isEol) = xs.dropWhile isEol :=
    fun xs => dropLineEnding_of_dropWhile (List.dropWhile_idempotent _ _)
  induction xs using frames_induction isEol consumes_parseThroughNul with
  | ok xs f rest hp ih =>
      have hf : parseFrame (xs.dropWhile isEol) = .ok f (dropLineEnding rest) := by
        rw [parseFrame_apply, hstart, hp]
      have hrest := frames_congr consumes_parseFrame (dropWhile_dropLineEnding rest)
      rw [frames_of_ok consumes_parseFrame hf, frames_of_ok consumes_parseThroughNul hp, hrest, ih]
  | incomplete xs hp =>
      have hf : parseFrame (xs.dropWhile isEol) = .incomplete := by
        rw [parseFrame_apply, hstart, hp]
      rw [frames_of_incomplete hf, frames_of_incomplete hp]
  | backtrack xs hp =>
      have hf : parseFrame (xs.dropWhile isEol) = .backtrack := by
        rw [parseFrame_apply, hstart, hp]
      rw [frames_of_backtrack hf, frames_of_backtrack hp]

/-- The next frame of a stream. -/
lemma frames_wireFrame (w : WireFrame) (ys : Bytes) :
    frames isEol parseThroughNul (w.bytes ++ ys) =
      (w.frame :: (frames isEol parseThroughNul ys).1, (frames isEol parseThroughNul ys).2) := by
  refine frames_of_ok consumes_parseThroughNul ?_
  rw [w.dropWhile_bytes, w.parseThroughNul_bytes]

/-- A stream of nothing but line ends. -/
lemma frames_eols {gap : Bytes} (hgap : ∀ b ∈ gap, isEol b = true) :
    frames isEol parseThroughNul gap = ([], .waiting []) := by
  have hnil := List.dropWhile_eq_nil_iff.2 hgap
  rw [frames_of_incomplete (by rw [hnil]; rfl), hnil]

end AsyncStomp
