/-
# Frames

The low-level representation of a STOMP frame, and its serialization.
-/
import AsyncStomp.Frame.Escape

namespace AsyncStomp

/-- A header key with an optional value. -/
abbrev HeaderTuple := Bytes × Option Bytes

/-- A header key with a mandatory value. -/
abbrev Header := Bytes × Bytes

/-- The first value under a key, which is where the loops over the headers of a frame stop. -/
def firstValue (headers : List Header) (key : Bytes) : Option Bytes :=
  (headers.find? fun h => h.1 == key).map Prod.snd

@[simp] lemma firstValue_nil (key : Bytes) : firstValue [] key = none := rfl

lemma firstValue_cons (h : Header) (headers : List Header) (key : Bytes) :
    firstValue (h :: headers) key = if h.1 = key then some h.2 else firstValue headers key := by
  by_cases hk : h.1 = key
  · simp [firstValue, hk]
  · simp [firstValue, hk]

lemma firstValue_append (xs ys : List Header) (key : Bytes) :
    firstValue (xs ++ ys) key = (firstValue xs key).or (firstValue ys key) := by
  induction xs with
  | nil => rfl
  | cons h xs ih =>
      rw [List.cons_append, firstValue_cons, firstValue_cons, ih]
      by_cases hk : h.1 = key
      · simp [hk]
      · simp [hk]

lemma firstValue_eq_none {headers : List Header} {key : Bytes} :
    firstValue headers key = none ↔ ∀ h ∈ headers, h.1 ≠ key := by
  simp [firstValue]

lemma mem_of_firstValue {headers : List Header} {key v : Bytes}
    (h : firstValue headers key = some v) : (key, v) ∈ headers := by
  obtain ⟨hd, hfind, rfl⟩ := Option.map_eq_some_iff.1 h
  have hkey := List.find?_some hfind
  rw [← eq_of_beq hkey]
  exact List.mem_of_find?_eq_some hfind

/-- A frame as it appears on the wire: the command, the headers and an optional body. -/
structure Frame where
  command : Bytes
  headers : List Header
  body : Option Bytes
deriving DecidableEq, Repr

/-- `headers_are_escaped` -/
def headersAreEscaped (command : Bytes) : Bool :=
  !([asBytes "CONNECT", asBytes "connect", asBytes "CONNECTED", asBytes "connected",
    asBytes "STOMP", asBytes "stomp"].contains command)

namespace Frame

/-- The headers that have a value. -/
def withValue (headers : List HeaderTuple) : List Header :=
  headers.filterMap fun h => h.2.map fun v => (h.1, v)

/-- `Frame::new`: headers without a value are filtered out. -/
def new (command : Bytes) (headers : List HeaderTuple) (body : Option Bytes) : Frame :=
  ⟨command, withValue headers, body⟩

lemma withValue_append (xs ys : List HeaderTuple) :
    withValue (xs ++ ys) = withValue xs ++ withValue ys :=
  List.filterMap_append

lemma mem_withValue {hs : List HeaderTuple} {h : Header} :
    h ∈ withValue hs ↔ (h.1, some h.2) ∈ hs := by
  rw [withValue, List.mem_filterMap]
  constructor
  · rintro ⟨⟨k, v⟩, hmem, hv⟩
    obtain ⟨w, rfl, rfl⟩ := Option.map_eq_some_iff.1 hv
    exact hmem
  · intro hmem
    exact ⟨_, hmem, rfl⟩

@[simp] lemma withValue_nil : withValue [] = [] := rfl

@[simp] lemma firstValue_withValue_cons (k : Bytes) (v : Option Bytes) (hs : List HeaderTuple)
    (key : Bytes) :
    firstValue (withValue ((k, v) :: hs)) key =
      if k = key then v.or (firstValue (withValue hs) key) else firstValue (withValue hs) key := by
  cases v with
  | none => simp [withValue]
  | some v =>
      have hcons : withValue ((k, some v) :: hs) = (k, v) :: withValue hs := rfl
      rw [hcons, firstValue_cons, Option.some_or]

/-- One round of the header loop of `serialize`. -/
def serializeHeader (escape : Bool) (h : Header) : Bytes :=
  writeEscapedAll escape h.1 ++ colon :: (writeEscapedAll escape h.2 ++ [lf])

/-- `Frame::serialize`: the bytes appended to the buffer. -/
def serialize (frame : Frame) : Bytes :=
  frame.command ++ lf ::
    (frame.headers.flatMap (serializeHeader (headersAreEscaped frame.command)) ++
      lf :: (frame.body.getD [] ++ [nul]))

/-- `Frame::add_extra_headers`: only keys the frame does not have yet are added. -/
def addExtraHeaders (frame : Frame) (headers : List Header) : Frame :=
  { frame with
    headers := frame.headers ++
      headers.filter fun h => !((frame.headers.map Prod.fst).contains h.1) }

@[simp] lemma addExtraHeaders_command (frame : Frame) (headers : List Header) :
    (frame.addExtraHeaders headers).command = frame.command := rfl

@[simp] lemma addExtraHeaders_body (frame : Frame) (headers : List Header) :
    (frame.addExtraHeaders headers).body = frame.body := rfl

lemma addExtraHeaders_headers (frame : Frame) (headers : List Header) :
    (frame.addExtraHeaders headers).headers = frame.headers ++
      headers.filter fun h => !((frame.headers.map Prod.fst).contains h.1) := rfl

@[simp] lemma addExtraHeaders_nil (frame : Frame) : frame.addExtraHeaders [] = frame := by
  cases frame
  simp [addExtraHeaders]

end Frame

end AsyncStomp
