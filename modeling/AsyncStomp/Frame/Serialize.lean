/-
# What `serialize` writes

The bytes of a serialized frame are those of a frame of the wire grammar whenever the
headers, as written, stay within their lines and the body is measured or holds no NUL
(`Frame.Writable.exists_wireFrame`).  Escaped headers stay within their lines by
themselves, and looking one up under a plain key finds what was written under that key.
-/
import AsyncStomp.Frame.Convert
import AsyncStomp.Frame.Grammar

namespace AsyncStomp

/-- A header as it stands in its line. -/
def writtenHeader (e : Bool) (h : Header) : Header :=
  (writeEscapedAll e h.1, writeEscapedAll e h.2)

/-- A header with its key and its value in escaped form. -/
def escapeHeader (h : Header) : Header := (escape h.1, escape h.2)

@[simp] lemma writtenHeader_true : writtenHeader true = escapeHeader := rfl

@[simp] lemma writtenHeader_false : writtenHeader false = id := by
  funext h
  simp [writtenHeader]

namespace Frame

/-- The headers of a frame as they stand in their lines. -/
def writtenHeaders (f : Frame) : List Header :=
  f.headers.map (writtenHeader (headersAreEscaped f.command))

/-- What the bytes of a frame are read back as. -/
def written (f : Frame) : Frame :=
  ⟨f.command, f.writtenHeaders, bodyOf f.writtenHeaders (f.body.getD [])⟩

/-- A frame that is read back from its own bytes. -/
structure Writable (f : Frame) : Prop where
  command_ne : f.command ≠ []
  command_alpha : ∀ b ∈ f.command, isAlpha b = true
  key_ne : ∀ h ∈ f.writtenHeaders, h.1 ≠ []
  key_stop : ∀ h ∈ f.writtenHeaders, ∀ b ∈ h.1, keyStop b = false
  value_eol : ∀ h ∈ f.writtenHeaders, ∀ b ∈ h.2, isEol b = false
  body_fits : BodyFits f.writtenHeaders (f.body.getD [])

lemma exists_lines (hs : List Header) (hne : ∀ h ∈ hs, h.1 ≠ [])
    (hkey : ∀ h ∈ hs, ∀ b ∈ h.1, keyStop b = false)
    (hvalue : ∀ h ∈ hs, ∀ b ∈ h.2, isEol b = false) :
    ∃ ls : List HeaderLine, ls.map HeaderLine.header = hs ∧
      ls.flatMap HeaderLine.bytes = hs.flatMap fun h => h.1 ++ colon :: (h.2 ++ [lf]) := by
  induction hs with
  | nil => exact ⟨[], rfl, rfl⟩
  | cons h hs ih =>
      obtain ⟨ls, hheaders, hbytes⟩ := ih (fun g hg => hne g (by simp [hg]))
        (fun g hg => hkey g (by simp [hg])) (fun g hg => hvalue g (by simp [hg]))
      refine ⟨⟨h.1, h.2, .lf, hne h (by simp), hkey h (by simp), hvalue h (by simp)⟩ :: ls, ?_, ?_⟩
      · rw [List.map_cons, hheaders]
        rfl
      · rw [List.flatMap_cons, List.flatMap_cons, hbytes]
        rfl

/-- **A writable frame is serialized to the bytes of a frame of the grammar.** -/
theorem Writable.exists_wireFrame {f : Frame} (hf : f.Writable) :
    ∃ w : WireFrame, w.bytes = f.serialize ∧ w.frame = f.written := by
  obtain ⟨ls, hheaders, hbytes⟩ := exists_lines f.writtenHeaders hf.key_ne hf.key_stop hf.value_eol
  refine ⟨⟨f.command, .lf, ls, .lf, f.body.getD [], hf.command_ne, hf.command_alpha,
    by rw [hheaders]; exact hf.body_fits⟩, ?_, ?_⟩
  · show f.command ++ ([lf] ++ (ls.flatMap HeaderLine.bytes ++ ([lf] ++
      (f.body.getD [] ++ [nul])))) = f.serialize
    rw [hbytes, Frame.writtenHeaders, List.flatMap_map]
    rfl
  · have hwritten : ∀ hs, hs = f.writtenHeaders →
        (⟨f.command, hs, bodyOf hs (f.body.getD [])⟩ : Frame) = f.written := by
      rintro hs rfl
      rfl
    exact hwritten _ hheaders

/-- A writable frame on its own begins with its command, and nothing is left over behind it. -/
lemma Writable.parse_serialize {f : Frame} (hf : f.Writable) :
    f.serialize.dropWhile isEol = f.serialize ∧
      parseThroughNul f.serialize = .ok f.written [] := by
  obtain ⟨w, hbytes, hframe⟩ := hf.exists_wireFrame
  have hdrop := w.dropWhile_bytes []
  have hparse := w.parseThroughNul_bytes []
  rw [List.append_nil] at hdrop hparse
  rw [← hbytes, ← hframe]
  exact ⟨hdrop, hparse⟩

lemma Writable.parseFrame_serialize {f : Frame} (hf : f.Writable) :
    parseFrame f.serialize = .ok f.written [] := by
  obtain ⟨hdrop, hparse⟩ := hf.parse_serialize
  rw [parseFrame_apply, dropLineEnding_of_dropWhile hdrop, hparse]
  rfl

/-- Escaped headers stay within their lines. -/
lemma Writable.of_escaped {f : Frame} (hne : f.command ≠ [])
    (halpha : ∀ b ∈ f.command, isAlpha b = true) (he : headersAreEscaped f.command = true)
    (hkeys : ∀ h ∈ f.headers, h.1 ≠ []) (hfits : BodyFits (f.headers.map escapeHeader)
      (f.body.getD [])) : f.Writable := by
  have hwritten : f.writtenHeaders = f.headers.map escapeHeader := by
    rw [writtenHeaders, he, writtenHeader_true]
  refine ⟨hne, halpha, ?_, ?_, ?_, by rwa [hwritten]⟩
  · intro h hh
    rw [hwritten] at hh
    obtain ⟨g, hg, rfl⟩ := List.mem_map.1 hh
    exact fun hnil => hkeys g hg (escape_eq_nil.1 hnil)
  · intro h hh b hb
    rw [hwritten] at hh
    obtain ⟨g, hg, rfl⟩ := List.mem_map.1 hh
    exact keyStop_eq_false_of_mem_escape hb
  · intro h hh b hb
    rw [hwritten] at hh
    obtain ⟨g, hg, rfl⟩ := List.mem_map.1 hh
    exact isEol_eq_false_of_keyStop (keyStop_eq_false_of_mem_escape hb)

end Frame

/-! ### Looking up a written header -/

/-- A key that is the same in escaped form. -/
def PlainKey (key : String) : Prop := escape (asBytes key) = asBytes key

instance (key : String) : Decidable (PlainKey key) :=
  inferInstanceAs (Decidable (escape (asBytes key) = asBytes key))

lemma firstValue_map_escapeHeader (hs : List Header) {key : Bytes} (hkey : escape key = key) :
    firstValue (hs.map escapeHeader) key = (firstValue hs key).map escape := by
  induction hs with
  | nil => rfl
  | cons h hs ih =>
      rw [List.map_cons, firstValue_cons, firstValue_cons, ih]
      by_cases hk : h.1 = key
      · have hesc : (escapeHeader h).1 = key := by rw [escapeHeader, hk, hkey]
        rw [if_pos hesc, if_pos hk]
        rfl
      · have hesc : (escapeHeader h).1 ≠ key := by
          intro heq
          exact hk (escape_inj.1 (heq.trans hkey.symm))
        rw [if_neg hesc, if_neg hk]

/-- **A header is found under the key it was written under, with the value it was written
with.** -/
theorem fetchHeader_map_escapeHeader (hs : List Header) {key : String} (hkey : PlainKey key) :
    fetchHeader (hs.map escapeHeader) key = (firstValue hs (asBytes key)).bind fromUtf8 := by
  rw [fetchHeader, firstValue_map_escapeHeader hs hkey]
  cases firstValue hs (asBytes key) with
  | none => rfl
  | some v => simp

/-! ### The length of a body -/

lemma escape_decimal (n : ℕ) : escape (decimal n) = decimal n := by
  apply escape_of_not_special
  intro b hb
  have hne : ∀ c : UInt8, c.toNat < 48 ∨ 57 < c.toNat → b ≠ c := fun c hc =>
    ne_of_mem_decimal hb hc
  simp [isSpecial, hne cr (by decide), hne lf (by decide), hne colon (by decide),
    hne backslash (by decide)]

lemma getContentLength_of_firstValue_none {hs : List Header}
    (h : firstValue hs (asBytes "content-length") = none) : getContentLength hs = none := by
  rw [getContentLength, h]
  rfl

lemma getContentLength_of_decimal {hs : List Header} {n : ℕ} (hn : n < UInt32.size)
    (h : firstValue hs (asBytes "content-length") = some (decimal n)) :
    getContentLength hs = some (UInt32.ofNat n) := by
  rw [getContentLength, h, Option.bind_some, decimal, fromUtf8_asBytes, Option.bind_some]
  exact parseU32_decimal hn

end AsyncStomp
