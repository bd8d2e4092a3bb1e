/-
# Texts and their lines

The headers of a CONNECT are written as they are, so a text that holds line ends of its own is read
as several lines.  A block of lines falls into header lines and a blank one in one way only: its
headers are those of the lines in front of the first blank one, and they are read if each of these
lines is that of a header (`headers_of_block`).
-/
import AsyncStomp.Frame.Grammar

namespace AsyncStomp

open PartialInput PartialInput.Parser

/-! ### Lines -/

/-- The lines of a text that is followed by a line feed, each without its line feed. -/
def textLines (text : Bytes) : List Bytes := text.splitOn lf

/-- A line without the carriage return that belongs to its end. -/
def dropCr (l : Bytes) : Bytes := if l.getLast? = some cr then l.dropLast else l

/-- Lines, each with a line feed behind it. -/
def block (ls : List Bytes) : Bytes := ls.flatMap fun l => l ++ [lf]

/-- The lines in front of the first blank one. -/
def linesToBlank (ls : List Bytes) : List Bytes := (ls.map dropCr).takeWhile fun l => !l.isEmpty

/-- The lines behind the first blank one. -/
def linesBehindBlank (ls : List Bytes) : List Bytes :=
  (ls.dropWhile fun l => !(dropCr l).isEmpty).tail

/-- One of the lines is blank. -/
def HasBlank (ls : List Bytes) : Prop := ∃ l ∈ ls, dropCr l = []

/-- What a line is read as: its key ends at the first colon. -/
def readLine (l : Bytes) : Header :=
  (l.takeWhile (· != colon), (l.dropWhile (· != colon)).tail)

/-- A line that is read as a header: a key, a colon and a value, and no carriage return. -/
def IsHeaderLine (l : Bytes) : Prop := (readLine l).1 ≠ [] ∧ colon ∈ l ∧ cr ∉ l

instance (ls : List Bytes) : Decidable (HasBlank ls) :=
  inferInstanceAs (Decidable (∃ l ∈ ls, dropCr l = []))

instance (l : Bytes) : Decidable (IsHeaderLine l) :=
  inferInstanceAs (Decidable ((readLine l).1 ≠ [] ∧ colon ∈ l ∧ cr ∉ l))

@[simp] lemma block_nil : block [] = [] := rfl

@[simp] lemma block_cons (l : Bytes) (ls : List Bytes) :
    block (l :: ls) = l ++ lf :: block ls := by
  simp [block]

lemma block_append (ls ls' : List Bytes) : block (ls ++ ls') = block ls ++ block ls' :=
  List.flatMap_append

/-- A text is its lines. -/
lemma block_textLines (text : Bytes) : block (textLines text) = text ++ [lf] := by
  induction text with
  | nil => rfl
  | cons b text ih =>
      rw [textLines, List.splitOn_cons_eq_if_modifyHead, ← textLines]
      by_cases hb : b = lf
      · simp [hb, ih]
      · obtain ⟨l, ls, hls⟩ := List.exists_cons_of_ne_nil (List.splitOn_ne_nil lf text)
        rw [← textLines] at hls
        rw [hls, block_cons] at ih
        simp [hb, hls, ih]

lemma lf_not_mem_of_mem_textLines {text l : Bytes} (hl : l ∈ textLines text) : lf ∉ l := by
  induction text generalizing l with
  | nil =>
      rw [textLines, List.splitOn_nil, List.mem_singleton] at hl
      simp [hl]
  | cons b text ih =>
      rw [textLines, List.splitOn_cons_eq_if_modifyHead, ← textLines] at hl
      by_cases hb : b = lf
      · rw [if_pos (beq_iff_eq.2 hb), List.mem_cons] at hl
        rcases hl with rfl | hl
        · simp
        · exact ih hl
      · rw [if_neg (by simpa using hb)] at hl
        obtain ⟨first, ls, hls⟩ := List.exists_cons_of_ne_nil (List.splitOn_ne_nil lf text)
        rw [← textLines] at hls
        rw [hls, List.modifyHead_cons, List.mem_cons] at hl
        rcases hl with rfl | hl
        · have hfirst := ih (hls ▸ List.mem_cons_self)
          simp [Ne.symm hb, hfirst]
        · exact ih (hls ▸ List.mem_cons_of_mem first hl)

/-- A text without a line feed is one line. -/
lemma textLines_of_not_mem {text : Bytes} (h : lf ∉ text) : textLines text = [text] :=
  List.splitOn_eq_singleton h

/-- A text without a carriage return is a line as it is. -/
lemma dropCr_of_not_mem {text : Bytes} (h : cr ∉ text) : dropCr text = text :=
  if_neg fun hlast => h (List.mem_of_getLast? hlast)

@[simp] lemma dropCr_append_cr (text : Bytes) : dropCr (text ++ [cr]) = text := by
  simp [dropCr]

/-- The end of a line is that of its carriage return. -/
lemma exists_eol (l : Bytes) : ∃ e : Eol, l ++ [lf] = dropCr l ++ e.bytes := by
  by_cases hlast : l.getLast? = some cr
  · obtain ⟨text, rfl⟩ := List.getLast?_eq_some_iff.1 hlast
    exact ⟨.crlf, by rw [dropCr_append_cr, List.append_assoc]; rfl⟩
  · exact ⟨.lf, by rw [dropCr, if_neg hlast]; rfl⟩

/-- A text and a line end are a line. -/
lemma exists_line {text : Bytes} (htext : ∀ b ∈ text, isEol b = false) (e : Eol) :
    ∃ l, lf ∉ l ∧ text ++ e.bytes = l ++ [lf] ∧ dropCr l = text := by
  have hlf : lf ∉ text := fun hmem => absurd (htext lf hmem) (by decide)
  have hcr : cr ∉ text := fun hmem => absurd (htext cr hmem) (by decide)
  cases e with
  | lf => exact ⟨text, hlf, rfl, dropCr_of_not_mem hcr⟩
  | crlf =>
      refine ⟨text ++ [cr], ?_, (List.append_assoc text [cr] [lf]).symm, dropCr_append_cr text⟩
      simpa [hlf] using (by decide : lf ≠ cr)

/-- A text is divided at the first separator. -/
lemma cut_unique {α : Type} {a : α} {xs ys rest rest' : List α} (hxs : a ∉ xs) (hys : a ∉ ys)
    (h : xs ++ a :: rest = ys ++ a :: rest') : xs = ys ∧ rest = rest' := by
  rcases List.append_eq_append_iff.1 h with ⟨zs, hzs, hcut⟩ | ⟨zs, hzs, hcut⟩
  · cases zs with
    | nil => exact ⟨by simpa using hzs.symm, by simpa using hcut⟩
    | cons z zs =>
        obtain ⟨rfl, -⟩ := List.cons.inj hcut
        exact absurd (by simp [hzs]) hys
  · cases zs with
    | nil => exact ⟨by simpa using hzs, by simpa using hcut.symm⟩
    | cons z zs =>
        obtain ⟨rfl, -⟩ := List.cons.inj hcut
        exact absurd (by simp [hzs]) hxs

/-! ### Headers -/

/-- The line of a header, without its end. -/
def headerText (h : Header) : Bytes := h.1 ++ colon :: h.2

/-- What a header that is not escaped is read as: its key ends at the first colon of its line. -/
def lineHeader (h : Header) : Header :=
  ((h.1 ++ colon :: h.2).takeWhile (· != colon),
    ((h.1 ++ colon :: h.2).dropWhile (· != colon)).tail)

@[simp] lemma readLine_headerText (h : Header) : readLine (headerText h) = lineHeader h := rfl

/-- A line with a colon is divided there. -/
lemma headerText_readLine {l : Bytes} (h : colon ∈ l) : headerText (readLine l) = l := by
  obtain ⟨b, bs, hb⟩ : ∃ b bs, l.dropWhile (· != colon) = b :: bs := by
    refine List.exists_cons_of_ne_nil fun hnil => ?_
    have hall := List.dropWhile_eq_nil_iff.1 hnil colon h
    simp at hall
  have hcolon : b = colon := by
    have hhead := List.head?_dropWhile_not (· != colon) l
    rw [hb] at hhead
    simpa using hhead
  have hsplit := List.takeWhile_append_dropWhile (p := (· != colon)) (l := l)
  rw [hb, hcolon] at hsplit
  rw [headerText, readLine, hb, List.tail_cons, hsplit]

lemma colon_mem_headerText (h : Header) : colon ∈ headerText h := by simp [headerText]

@[simp] lemma headerText_lineHeader (h : Header) : headerText (lineHeader h) = headerText h :=
  headerText_readLine (colon_mem_headerText h)

lemma colon_not_mem_readLine (l : Bytes) : colon ∉ (readLine l).1 := by
  intro hmem
  have hne := List.mem_takeWhile_imp hmem
  simp at hne

/-- A header without a colon in its key is read as it is. -/
lemma lineHeader_eq {h : Header} (hkey : colon ∉ h.1) : lineHeader h = h := by
  have hne : ∀ b ∈ h.1, (b != colon) = true := fun b hb => by
    rw [bne_iff_ne]
    rintro rfl
    exact hkey hb
  rw [lineHeader, List.takeWhile_append_of_pos hne, List.dropWhile_append_of_pos hne]
  simp

namespace HeaderLine

/-- The text of a header line does not hold its end. -/
lemma isEol_of_mem_headerText (l : HeaderLine) {b : UInt8} (hb : b ∈ headerText l.header) :
    isEol b = false := by
  rcases List.mem_append.1 hb with hb | hb
  · exact isEol_eq_false_of_keyStop (l.key_stop b hb)
  · rcases List.mem_cons.1 hb with rfl | hb
    · rfl
    · exact l.value_eol b hb

lemma lineHeader_header (l : HeaderLine) : lineHeader l.header = l.header := by
  refine lineHeader_eq fun hmem => ?_
  have hstop := l.key_stop colon hmem
  simp [keyStop] at hstop

/-- A header line is the line of its header. -/
lemma exists_line (l : HeaderLine) : ∃ r, lf ∉ r ∧ l.bytes = r ++ [lf] ∧
    IsHeaderLine (dropCr r) ∧ readLine (dropCr r) = l.header := by
  obtain ⟨r, hlf, hbytes, hdrop⟩ :=
    AsyncStomp.exists_line (fun _ hb => l.isEol_of_mem_headerText hb) l.eol
  refine ⟨r, hlf, ?_, ?_, ?_⟩
  · rw [← hbytes]
    simp [bytes, headerText, header]
  · rw [hdrop]
    refine ⟨?_, colon_mem_headerText _, fun hcr => ?_⟩
    · rw [readLine_headerText, l.lineHeader_header]
      exact l.key_ne
    · exact absurd (l.isEol_of_mem_headerText hcr) (by decide)
  · rw [hdrop, readLine_headerText, l.lineHeader_header]

/-- The line of a header is a header line. -/
lemma exists_of_isHeaderLine {r : Bytes} (hlf : lf ∉ r) (h : IsHeaderLine (dropCr r)) :
    ∃ l : HeaderLine, l.bytes = r ++ [lf] ∧ l.header = readLine (dropCr r) := by
  obtain ⟨hkey, hcolon, hcr⟩ := h
  obtain ⟨e, he⟩ := exists_eol r
  have htext := headerText_readLine hcolon
  have heol : ∀ b ∈ dropCr r, isEol b = false := by
    intro b hb
    have hbr : b ∈ r ++ [lf] := he ▸ List.mem_append_left _ hb
    have hblf : b ≠ lf := by
      rintro rfl
      -- the line feed would be in the line
      rw [dropCr] at hb
      split at hb
      · exact hlf (List.dropLast_subset r hb)
      · exact hlf hb
    have hbcr : b ≠ cr := fun heq => hcr (heq ▸ hb)
    simp [isEol, hblf, hbcr]
  rw [← htext] at heol
  refine ⟨⟨(readLine (dropCr r)).1, (readLine (dropCr r)).2, e, hkey, ?_, ?_⟩, ?_, rfl⟩
  · intro b hb
    have hbeol := heol b (List.mem_append_left _ hb)
    have hbcolon : b ≠ colon := by
      rintro rfl
      exact colon_not_mem_readLine _ hb
    rw [isEol, Bool.or_eq_false_iff] at hbeol
    simp [keyStop, hbcolon, hbeol]
  · exact fun b hb => heol b (List.mem_append_right _ (List.mem_cons_of_mem _ hb))
  · have hbytes : ∀ l : HeaderLine, l.bytes = headerText l.header ++ l.eol.bytes := fun l => by
      simp [bytes, headerText, header]
    exact (hbytes _).trans ((congrArg (· ++ e.bytes) htext).trans he.symm)

end HeaderLine

/-! ### Blocks of lines -/

lemma linesToBlank_append_of_blank {ls : List Bytes} (h : HasBlank ls) (ls' : List Bytes) :
    linesToBlank (ls ++ ls') = linesToBlank ls := by
  obtain ⟨l, hl, hempty⟩ := h
  have hlen : ((ls.map dropCr).takeWhile fun l => !l.isEmpty).length ≠ (ls.map dropCr).length := by
    intro hall
    have htake := (List.takeWhile_prefix _).eq_of_length hall
    have hpos := List.takeWhile_eq_self_iff.1 htake _ (List.mem_map_of_mem hl)
    simp [hempty] at hpos
  rw [linesToBlank, List.map_append, List.takeWhile_append, if_neg hlen, linesToBlank]

lemma linesToBlank_append_of_not_blank {ls : List Bytes} (h : ¬ HasBlank ls) (ls' : List Bytes) :
    linesToBlank (ls ++ ls') = ls.map dropCr ++ linesToBlank ls' := by
  have hpos : ∀ l ∈ ls.map dropCr, (!l.isEmpty) = true := by
    intro l hl
    obtain ⟨r, hr, rfl⟩ := List.mem_map.1 hl
    simpa using fun hempty => h ⟨r, hr, hempty⟩
  rw [linesToBlank, List.map_append, List.takeWhile_append_of_pos hpos, linesToBlank]

lemma linesBehindBlank_append_of_not_blank {ls : List Bytes} (h : ¬ HasBlank ls)
    (ls' : List Bytes) : linesBehindBlank (ls ++ ls') = linesBehindBlank ls' := by
  have hpos : ∀ l ∈ ls, (!(dropCr l).isEmpty) = true := by
    intro l hl
    simpa using fun hempty => h ⟨l, hl, hempty⟩
  rw [linesBehindBlank, List.dropWhile_append_of_pos hpos, linesBehindBlank]

/-- A blank line at the end changes nothing. -/
lemma linesToBlank_append_nil (ls : List Bytes) : linesToBlank (ls ++ [[]]) = linesToBlank ls := by
  by_cases h : HasBlank ls
  · rw [linesToBlank_append_of_blank h]
  · have hself := linesToBlank_append_of_not_blank h []
    rw [List.append_nil] at hself
    rw [linesToBlank_append_of_not_blank h, hself]
    rfl

lemma linesToBlank_cons_of_eq {l : Bytes} (h : dropCr l = []) (ls : List Bytes) :
    linesToBlank (l :: ls) = [] := by
  simp [linesToBlank, h]

lemma linesToBlank_cons_of_ne {l : Bytes} (h : dropCr l ≠ []) (ls : List Bytes) :
    linesToBlank (l :: ls) = dropCr l :: linesToBlank ls := by
  simp [linesToBlank, h]

lemma linesBehindBlank_cons_of_eq {l : Bytes} (h : dropCr l = []) (ls : List Bytes) :
    linesBehindBlank (l :: ls) = ls := by
  simp [linesBehindBlank, h]

lemma linesBehindBlank_cons_of_ne {l : Bytes} (h : dropCr l ≠ []) (ls : List Bytes) :
    linesBehindBlank (l :: ls) = linesBehindBlank ls := by
  simp [linesBehindBlank, h]

/-- **A block of lines is read in one way.**  It falls into header lines and a blank line where the
lines in front of its first blank one are those of headers, and then the headers are theirs. -/
theorem headers_of_block {ls : List Bytes} (hls : ∀ l ∈ ls, lf ∉ l)
    (hblank : HasBlank ls) {tail rest : Bytes} {hs : List Header} :
    (∃ (lines : List HeaderLine) (blank : Eol),
        block ls ++ tail = lines.flatMap HeaderLine.bytes ++ (blank.bytes ++ rest) ∧
          lines.map HeaderLine.header = hs) ↔
      (∀ l ∈ linesToBlank ls, IsHeaderLine l) ∧ hs = (linesToBlank ls).map readLine ∧
        rest = block (linesBehindBlank ls) ++ tail := by
  have hnone : ∀ e : Eol, ∃ r, lf ∉ r ∧ e.bytes = r ++ [lf] ∧ dropCr r = [] :=
    fun e => exists_line (List.forall_mem_nil _) e
  -- line by line: the first line feed ends the same line on both sides
  induction ls generalizing hs with
  | nil => simp [HasBlank] at hblank
  | cons l ls ih =>
      have hl := hls l List.mem_cons_self
      have hlater : ∀ r ∈ ls, lf ∉ r := fun r hr => hls r (List.mem_cons_of_mem _ hr)
      have hfirst : ∀ {r X : Bytes}, lf ∉ r → block (l :: ls) ++ tail = r ++ [lf] ++ X →
          l = r ∧ block ls ++ tail = X := by
        intro r X hr h
        rw [block_cons, List.append_assoc, List.append_assoc] at h
        exact cut_unique hl hr h
      by_cases hempty : dropCr l = []
      · rw [linesToBlank_cons_of_eq hempty, linesBehindBlank_cons_of_eq hempty]
        constructor
        · rintro ⟨lines, blank, h, rfl⟩
          cases lines with
          | nil =>
              obtain ⟨r, hr, hbytes, -⟩ := hnone blank
              rw [List.flatMap_nil, List.nil_append, hbytes] at h
              exact ⟨List.forall_mem_nil _, rfl, (hfirst hr h).2.symm⟩
          | cons line lines =>
              obtain ⟨r, hr, hbytes, ⟨hkey, -⟩, -⟩ := line.exists_line
              rw [List.flatMap_cons, hbytes, List.append_assoc] at h
              rw [← (hfirst hr h).1, hempty] at hkey
              exact absurd rfl hkey
        · rintro ⟨-, rfl, rfl⟩
          obtain ⟨e, he⟩ := exists_eol l
          rw [hempty, List.nil_append] at he
          refine ⟨[], e, ?_, rfl⟩
          rw [List.flatMap_nil, List.nil_append, ← he]
          simp
      · have hrest : HasBlank ls := by
          obtain ⟨r, hr, hrempty⟩ := hblank
          rcases List.mem_cons.1 hr with rfl | hr
          · exact absurd hrempty hempty
          · exact ⟨r, hr, hrempty⟩
        rw [linesToBlank_cons_of_ne hempty, linesBehindBlank_cons_of_ne hempty,
          List.forall_mem_cons, List.map_cons]
        constructor
        · rintro ⟨lines, blank, h, rfl⟩
          cases lines with
          | nil =>
              obtain ⟨r, hr, hbytes, hrempty⟩ := hnone blank
              rw [List.flatMap_nil, List.nil_append, hbytes] at h
              exact absurd ((hfirst hr h).1 ▸ hrempty) hempty
          | cons line lines =>
              obtain ⟨r, hr, hbytes, hheader, hread⟩ := line.exists_line
              rw [List.flatMap_cons, hbytes, List.append_assoc] at h
              obtain ⟨rfl, hnext⟩ := hfirst hr h
              obtain ⟨hall, hheaders, htail⟩ := (ih hlater hrest).1 ⟨lines, blank, hnext, rfl⟩
              refine ⟨⟨hheader, hall⟩, ?_, htail⟩
              rw [List.map_cons, hheaders, hread]
        · rintro ⟨⟨hheader, hall⟩, rfl, htail⟩
          obtain ⟨lines, blank, h, hheaders⟩ := (ih hlater hrest).2 ⟨hall, rfl, htail⟩
          obtain ⟨line, hbytes, hread⟩ := HeaderLine.exists_of_isHeaderLine hl hheader
          refine ⟨line :: lines, blank, ?_, by rw [List.map_cons, hread, hheaders]⟩
          rw [List.flatMap_cons, hbytes, block_cons]
          simp only [List.append_assoc, List.cons_append, List.nil_append, h]

/-! ### Headers whose lines are not blank -/

/-- The lines of headers that are not escaped. -/
def headerLines (hs : List Header) : List Bytes := hs.flatMap fun h => textLines (headerText h)

lemma headerLines_append (hs hs' : List Header) :
    headerLines (hs ++ hs') = headerLines hs ++ headerLines hs' :=
  List.flatMap_append

lemma block_headerLines (hs : List Header) :
    block (headerLines hs) = hs.flatMap fun h => headerText h ++ [lf] := by
  induction hs with
  | nil => rfl
  | cons h hs ih =>
      rw [headerLines, List.flatMap_cons, ← headerLines, block_append, ih, block_textLines,
        List.flatMap_cons]

lemma lf_not_mem_of_mem_headerLines {hs : List Header} {l : Bytes} (hl : l ∈ headerLines hs) :
    lf ∉ l := by
  obtain ⟨h, -, hl⟩ := List.mem_flatMap.1 hl
  exact lf_not_mem_of_mem_textLines hl

section WithinLines

variable {hs : List Header} (hhs : ∀ h ∈ hs, ∀ b ∈ headerText h, isEol b = false)

include hhs

/-- A header that stays within its line is one line. -/
lemma headerLines_eq : headerLines hs = hs.map headerText := by
  have hline : ∀ h ∈ hs, textLines (headerText h) = [headerText h] := fun h hh =>
    textLines_of_not_mem fun hlf => absurd (hhs h hh lf hlf) (by decide)
  rw [headerLines, List.flatMap_congr hline, List.map_eq_flatMap]

lemma map_dropCr_headerLines : (headerLines hs).map dropCr = hs.map headerText := by
  rw [headerLines_eq hhs, List.map_map]
  refine List.map_congr_left fun h hh => ?_
  exact dropCr_of_not_mem fun hcr => absurd (hhs h hh cr hcr) (by decide)

lemma not_hasBlank_headerLines : ¬ HasBlank (headerLines hs) := by
  rintro ⟨l, hl, hempty⟩
  have hmem : [] ∈ (headerLines hs).map dropCr := hempty ▸ List.mem_map_of_mem hl
  rw [map_dropCr_headerLines hhs] at hmem
  obtain ⟨h, -, hnil⟩ := List.mem_map.1 hmem
  simp [headerText] at hnil

/-- The lines that are read are those of the headers. -/
lemma linesToBlank_headerLines (ls : List Bytes) :
    linesToBlank (headerLines hs ++ ls) = hs.map headerText ++ linesToBlank ls := by
  rw [linesToBlank_append_of_not_blank (not_hasBlank_headerLines hhs), map_dropCr_headerLines hhs]

end WithinLines

end AsyncStomp
