import JSEngine.Common.Chunks
import JSEngine.Common.Hex
import JSEngine.Common.Machine
import JSEngine.Java.Basic
import Mathlib.Data.List.TakeWhile

/-!
# Frames of the debugger's transport

A message is eight hexadecimal digits, a newline, and as many bytes as the digits say
(quickjs-debugger.c:17-54, 431-499). The payload is read into `message_buffer`, which grows
to the longest message so far; `js_debugger_free` (lines 681-705) gives the buffer back and
keeps `message_buffer_length`.

A session is a run of attaches, messages, events that are sent, and frees. What arrives on a
connection is a list of frames, cut into any chunks, and the beginning of another frame. The
frames that have not been read are recorded beside what the code keeps.

Main results:

* `strtol_digits`: eight hexadecimal digits are read as their number;
* `written_iff`: a message that has been written is a frame with the value and a newline,
  exactly if its length is one of a frame;
* `framing_iff`: in every session the messages are parsed whole and in order, what is written
  are frames, and the buffer holds what its length says, if and only if no buffer is given
  back, no allocation fails and no message is too long.
-/

namespace JSEngine.Debugger.Framing

open JSEngine.Common JSEngine.Java

/-! ## Frames -/

/-- A message of the protocol, with a length from 1 to 2³¹ − 2. -/
structure Frame where
  digits : List UInt8
  payload : List UInt8
  length_digits : digits.length = 8
  isDigit : ∀ c ∈ digits, Hex.isDigit c = true
  value : Hex.value digits = payload.length
  pos : 0 < payload.length
  lt : payload.length < 2 ^ 31 - 1

/-- `'\n'`. -/
def newline : UInt8 := 10

def Frame.bytes (f : Frame) : List UInt8 := f.digits ++ newline :: f.payload

/-- What arrives on a connection: frames and the beginning of one more, in chunks. -/
structure Incoming where
  frames : List Frame
  tail : List UInt8
  chunks : List (List UInt8)
  nonempty : [] ∉ chunks
  flatten : chunks.flatten = frames.flatMap Frame.bytes ++ tail
  incomplete : ∃ f : Frame, ∃ rest ≠ [], tail ++ rest = f.bytes

/-! ## Model -/

/-- `isspace`. -/
def isspace (c : UInt8) : Bool := c = 32 || (9 ≤ c && c ≤ 13)

/-- A sign, if there is one: whether it is a minus. -/
def takeSign : List UInt8 → Bool × List UInt8
  | 43 :: s => (false, s)
  | 45 :: s => (true, s)
  | s => (false, s)

/-- `0x` in front of a digit is skipped. -/
def skip0x : List UInt8 → List UInt8
  | 48 :: x :: d :: s => if (x = 120 || x = 88) && Hex.isDigit d then d :: s else 48 :: x :: d :: s
  | s => s

/-- `strtol(s, NULL, 16)`, for what eight characters can say. -/
def strtol (s : List UInt8) : ℤ :=
  let signed := takeSign (s.dropWhile isspace)
  let value : ℤ := Hex.value ((skip0x signed.2).takeWhile Hex.isDigit)
  if signed.1 then -value else value

/-- The loop of `js_transport_write_fully` (lines 29-39), where the writes take as many bytes
    as the list says: whether all have been taken, what has been, and what is left of the
    list. -/
def js_transport_write_fully : List UInt8 → List ℕ → Bool × List UInt8 × List ℕ
  | [], sents => (true, [], sents)
  | _ :: _, [] => (false, [], [])
  | _ :: _, 0 :: sents => (false, [], sents)
  | b :: bs, (sent + 1) :: sents =>
    let r := js_transport_write_fully (bs.drop sent) sents
    (r.1, b :: bs.take sent ++ r.2.1, r.2.2)

/-- `js_transport_write_message_newline` (lines 41-54). `%08x` prints the bits of the
    `int`. -/
def js_transport_write_message_newline (value : List UInt8) (sents : List ℕ) :
    Bool × List UInt8 :=
  let message_length := Hex.digits 8 ((value.length + 1) % 2 ^ 32) ++ [newline]
  match js_transport_write_fully message_length sents with
  | (false, sent, _) => (false, sent)
  | (true, sent, sents) =>
    match js_transport_write_fully value sents with
    | (false, sent', _) => (false, sent ++ sent')
    | (true, sent', sents) =>
      let r := js_transport_write_fully [newline] sents
      (r.1, sent ++ sent' ++ r.2.1)

/-- `transport_close != NULL`, the bytes that `message_buffer` has room for, if it is not
    null, `message_buffer_length`, and what still arrives.

    `frames` and `tail` are the frames that have not been read. -/
structure Session where
  attached : Bool
  message_buffer : Option ℤ
  message_buffer_length : ℤ
  chunks : List (List UInt8)
  frames : List Frame
  tail : List UInt8

inductive Action
  /-- `js_debugger_attach`, up to the loop -/
  | attach (incoming : Incoming)
  /-- one message of `js_process_debugger_messages`; whether `js_malloc_rt` finds memory -/
  | message (allocated : Bool)
  /-- `js_transport_write_message_newline` -/
  | send (value : List UInt8) (sents : List ℕ)
  /-- `js_debugger_free` -/
  | free

/-- `js_debugger_free` (lines 681-705); its event is a `send`. -/
def Session.free (s : Session) : Session :=
  if s.attached then
    { s with attached := false, message_buffer := none, chunks := [], frames := [], tail := [] }
  else s

/-- `js_debugger_attach` (lines 707-737). -/
def Session.attach (s : Session) (incoming : Incoming) : Session :=
  { s.free with
    attached := true
    chunks := incoming.chunks
    frames := incoming.frames
    tail := incoming.tail }

/-- The length prefix (lines 446-452); none where the assertion fails, or where
    `message_length + 1` overflows. -/
def messageLength (message_length_buf : List UInt8) : Option ℤ :=
  let message_length := toInt (strtol (message_length_buf.take 8))
  if 0 < message_length ∧ message_length < 2 ^ 31 - 1 then some message_length else none

/-- The buffer for a message of that length (lines 453-462). -/
def Session.reserve (s : Session) (message_length : ℤ) (allocated : Bool) : Session :=
  if message_length > s.message_buffer_length then
    { s with
      message_buffer := if allocated then some (message_length + 1) else none
      message_buffer_length := message_length }
  else s

/-- The payload (lines 464-470): `js_transport_read` refuses a null buffer. None where the
    bytes and the terminator do not fit. -/
def Session.readMessage (s : Session) (message_length : ℤ) :
    Option (Session × Option (List UInt8)) :=
  match s.message_buffer with
  | none => some (s, none)
  | some size =>
    if message_length + 1 ≤ size then
      let r := readFully message_length.toNat s.chunks
      some ({ s with chunks := r.2 }, r.1)
    else none

/-- One turn of the loop (lines 442-470): what `JS_ParseJSON` is given, if not `goto done`. -/
def Session.message (s : Session) (allocated : Bool) :
    Option (Session × Option (List UInt8)) :=
  match readFully 9 s.chunks with
  | (none, chunks) => some ({ s with chunks := chunks }, none)
  | (some message_length_buf, chunks) =>
    match messageLength message_length_buf with
    | none => none
    | some message_length =>
      ({ s with chunks := chunks }.reserve message_length allocated).readMessage message_length

/-- What can be seen of a step. -/
inductive Seen
  /-- the payload of the next frame, if it is complete, and what has been parsed -/
  | message (next : Option (List UInt8)) (parsed : Option (List UInt8))
  /-- a message that has been written, in the bytes sent -/
  | wrote (value : List UInt8) (bytes : List UInt8)
  /-- `message_buffer` and `message_buffer_length` -/
  | buffer (message_buffer : Option ℤ) (message_buffer_length : ℤ)
  deriving DecidableEq

def Session.buffer (s : Session) : Seen := .buffer s.message_buffer s.message_buffer_length

/-- The next frame is taken off the record. -/
def Session.advance (s : Session) : Session :=
  match s.frames with
  | [] => { s with tail := [] }
  | _ :: frames => { s with frames := frames }

def Session.step (s : Session) : Action → Option (Session × List Seen)
  | .attach incoming => some (s.attach incoming, [(s.attach incoming).buffer])
  | .message allocated =>
    if s.attached then
      (s.message allocated).map fun r =>
        (r.1.advance, [.message (s.frames.head?.map Frame.payload) r.2, r.1.buffer])
    else none
  | .send value sents =>
    match js_transport_write_message_newline value sents with
    | (true, bytes) => some (s, [.wrote value bytes])
    | (false, _) => some (s, [])
  | .free => some (s.free, [s.free.buffer])

/-- The debugger of a new runtime: all fields are zero. -/
def debugger : Machine Session Action Seen where
  init := ⟨false, none, 0, [], [], []⟩
  step := Session.step

/-! ## The length prefix -/

theorem isspace_of_isDigit {c : UInt8} (h : Hex.isDigit c = true) : isspace c = false := by
  unfold Hex.isDigit Hex.digitValue at h
  unfold isspace
  have h9 : (9 : UInt8).toNat = 9 := rfl
  have h13 : (13 : UInt8).toNat = 13 := rfl
  have h32 : (32 : UInt8).toNat = 32 := rfl
  have hc : 48 ≤ c.toNat := by
    split_ifs at h <;> first | omega | contradiction
  rw [Bool.or_eq_false_iff, Bool.and_eq_false_iff, decide_eq_false_iff_not,
    decide_eq_false_iff_not, decide_eq_false_iff_not]
  refine ⟨?_, .inr fun hle => ?_⟩
  · rintro rfl
    omega
  · have := UInt8.le_iff_toNat_le.mp hle
    omega

theorem takeSign_of_isDigit {cs : List UInt8} (h : ∀ c ∈ cs, Hex.isDigit c = true) :
    takeSign cs = (false, cs) := by
  have hplus : Hex.isDigit 43 = false := by decide
  have hminus : Hex.isDigit 45 = false := by decide
  unfold takeSign
  split
  · exact absurd (h 43 List.mem_cons_self) (by rw [hplus]; decide)
  · exact absurd (h 45 List.mem_cons_self) (by rw [hminus]; decide)
  · rfl

theorem skip0x_of_isDigit {cs : List UInt8} (h : ∀ c ∈ cs, Hex.isDigit c = true) :
    skip0x cs = cs := by
  have hx : Hex.isDigit 120 = false ∧ Hex.isDigit 88 = false := by decide
  unfold skip0x
  split
  · rename_i x d s
    have hxd := h x (List.mem_cons_of_mem _ List.mem_cons_self)
    have hne : (x = 120 || x = 88) = false := by
      rw [Bool.or_eq_false_iff, decide_eq_false_iff_not, decide_eq_false_iff_not]
      constructor <;> rintro rfl
      · exact absurd hxd (by rw [hx.1]; decide)
      · exact absurd hxd (by rw [hx.2]; decide)
    rw [hne, Bool.false_and, if_neg Bool.false_ne_true]
  · rfl

/-- **Digits are read as their number.** -/
theorem strtol_digits {cs : List UInt8} (h : ∀ c ∈ cs, Hex.isDigit c = true) :
    strtol cs = Hex.value cs := by
  have hspace : cs.dropWhile isspace = cs := by
    cases cs with
    | nil => rfl
    | cons c cs =>
      rw [List.dropWhile_cons, isspace_of_isDigit (h c List.mem_cons_self)]
      rfl
  have hall : cs.takeWhile Hex.isDigit = cs := List.takeWhile_eq_self_iff.mpr h
  simp only [strtol, hspace, takeSign_of_isDigit h, skip0x_of_isDigit h, hall, if_neg Bool.false_ne_true]

/-- The prefix of a frame says the length of its payload. -/
theorem messageLength_frame (f : Frame) :
    messageLength (f.digits ++ [newline]) = some (f.payload.length : ℤ) := by
  have htake : (f.digits ++ [newline]).take 8 = f.digits := List.take_left' f.length_digits
  have hint : toInt (f.payload.length : ℤ) = f.payload.length :=
    Int.bmod_eq_of_le (by have := f.lt; omega) (by have := f.lt; omega)
  have hrange : 0 < (f.payload.length : ℤ) ∧ (f.payload.length : ℤ) < 2 ^ 31 - 1 := by
    have hpos := f.pos
    have hlt := f.lt
    omega
  rw [messageLength, htake, strtol_digits f.isDigit, f.value, hint, if_pos hrange]

/-! ## What is written -/

/-- All bytes, if all writes take some. -/
theorem write_fully_eq {value bytes : List UInt8} {sents rest : List ℕ}
    (h : js_transport_write_fully value sents = (true, bytes, rest)) : bytes = value := by
  induction sents generalizing value bytes rest with
  | nil =>
    cases value with
    | nil => exact (Prod.mk.inj (Prod.mk.inj h).2).1.symm
    | cons b bs => cases (Prod.mk.inj h).1
  | cons sent sents ih =>
    cases value with
    | nil => exact (Prod.mk.inj (Prod.mk.inj h).2).1.symm
    | cons b bs =>
      cases sent with
      | zero => cases (Prod.mk.inj h).1
      | succ sent =>
        obtain ⟨hok, hrest⟩ := Prod.mk.inj h
        obtain ⟨rfl, -⟩ := Prod.mk.inj hrest
        have htail := ih (Prod.ext hok rfl :
          js_transport_write_fully (bs.drop sent) sents = (true, _, _))
        rw [htail, List.cons_append, List.take_append_drop]

/-- What has been written in full. -/
theorem write_message_newline_eq {value bytes : List UInt8} {sents : List ℕ}
    (h : js_transport_write_message_newline value sents = (true, bytes)) :
    bytes = Hex.digits 8 ((value.length + 1) % 2 ^ 32) ++ newline :: (value ++ [newline]) := by
  unfold js_transport_write_message_newline at h
  dsimp only at h
  split at h
  · cases (Prod.mk.inj h).1
  · rename_i sent sents' hheader
    split at h
    · cases (Prod.mk.inj h).1
    · rename_i sent' sents'' hvalue
      obtain ⟨hok, rfl⟩ := Prod.mk.inj h
      have hlast := write_fully_eq (Prod.ext hok rfl :
        js_transport_write_fully [newline] sents'' = (true, _, _))
      rw [hlast, write_fully_eq hheader, write_fully_eq hvalue]
      simp only [List.append_assoc, List.cons_append, List.nil_append]

/-- The bytes are a frame with the value and a newline. -/
def Written (value bytes : List UInt8) : Prop :=
  ∃ f : Frame, bytes = f.bytes ∧ f.payload = value ++ [newline]

/-- **A message is a frame** unless it is too long for one. -/
theorem written_iff {value bytes : List UInt8} {sents : List ℕ}
    (h : js_transport_write_message_newline value sents = (true, bytes)) :
    Written value bytes ↔ value.length + 1 < 2 ^ 31 - 1 := by
  have hlength : (value ++ [newline]).length = value.length + 1 := by
    rw [List.length_append, List.length_singleton]
  rw [write_message_newline_eq h]
  constructor
  · rintro ⟨f, -, hpayload⟩
    rw [← hlength, ← hpayload]
    exact f.lt
  · intro hlt
    refine ⟨⟨Hex.digits 8 ((value.length + 1) % 2 ^ 32), value ++ [newline], Hex.length_digits _ _,
      fun c hc => Hex.isDigit_of_mem_digits hc, ?_, ?_, ?_⟩, rfl, rfl⟩
    · rw [Hex.value_digits, hlength]
      omega
    · rw [hlength]
      omega
    · rw [hlength]
      exact hlt

/-! ## Sessions -/

/-- A buffer holds what its length says, and the terminator. -/
def Holds (message_buffer : Option ℤ) (message_buffer_length : ℤ) : Prop :=
  0 < message_buffer_length → ∃ size, message_buffer = some size ∧ message_buffer_length + 1 ≤ size

/-- The next frame is parsed, if it is complete; what is written is a frame; the buffer
    holds what its length says. -/
def Seen.Faithful : Seen → Prop
  | .message next parsed => parsed = next
  | .wrote value bytes => Written value bytes
  | .buffer message_buffer message_buffer_length => Holds message_buffer message_buffer_length

/-- There is no buffer yet when the transport is closed, memory is found where a longer
    message begins, and a message that is written is not too long. -/
def Careful (s : Session) : Action → Prop
  | .attach _ | .free => s.attached = true → s.message_buffer = none
  | .message allocated => ∀ message_length_buf chunks message_length,
    readFully 9 s.chunks = (some message_length_buf, chunks) →
    messageLength message_length_buf = some message_length →
    s.message_buffer_length < message_length → allocated = true
  | .send value sents =>
    (js_transport_write_message_newline value sents).1 = true → value.length + 1 < 2 ^ 31 - 1

/-- What is left to read is the record of it. -/
structure Recorded (chunks : List (List UInt8)) (frames : List Frame) (tail : List UInt8) :
    Prop where
  nonempty : [] ∉ chunks
  flatten : chunks.flatten = frames.flatMap Frame.bytes ++ tail
  incomplete : ∃ f : Frame, ∃ rest ≠ [], tail ++ rest = f.bytes

/-- There is no buffer yet, or it is large enough. -/
def Sized (message_buffer : Option ℤ) (message_buffer_length : ℤ) : Prop :=
  (message_buffer = none ∧ message_buffer_length = 0) ∨
    ∃ size, message_buffer = some size ∧ 0 < message_buffer_length ∧
      message_buffer_length + 1 ≤ size

structure Sound (s : Session) : Prop where
  sized : Sized s.message_buffer s.message_buffer_length
  recorded : s.attached = true → Recorded s.chunks s.frames s.tail

theorem Sized.holds {message_buffer : Option ℤ} {message_buffer_length : ℤ}
    (h : Sized message_buffer message_buffer_length) :
    Holds message_buffer message_buffer_length := by
  intro hpos
  obtain ⟨-, hzero⟩ | ⟨size, hsome, -, hle⟩ := h
  · omega
  · exact ⟨size, hsome, hle⟩

theorem Frame.length_bytes (f : Frame) : f.bytes.length = 9 + f.payload.length := by
  rw [Frame.bytes, List.length_append, f.length_digits, List.length_cons]
  omega

/-- A buffer for the next message, unless no memory is found for it. -/
theorem Sized.reserve {s : Session} (h : Sized s.message_buffer s.message_buffer_length) {n : ℤ}
    (hn : 0 < n) {allocated : Bool} (ha : s.message_buffer_length < n → allocated = true) :
    ∃ size, (s.reserve n allocated).message_buffer = some size ∧ n + 1 ≤ size ∧
      Sized (some size) (s.reserve n allocated).message_buffer_length := by
  unfold Session.reserve
  split_ifs with hlt hall
  · exact ⟨n + 1, rfl, le_refl _, .inr ⟨n + 1, rfl, hn, le_refl _⟩⟩
  · exact absurd (ha hlt) hall
  · obtain ⟨-, hzero⟩ | ⟨size, hsome, hpos, hle⟩ := h
    · omega
    · exact ⟨size, hsome, by omega, .inr ⟨size, rfl, hpos, hle⟩⟩

/-- The buffer does not depend on what is read. -/
theorem reserve_chunks (s : Session) (chunks : List (List UInt8)) (n : ℤ) (allocated : Bool) :
    ({ s with chunks := chunks }.reserve n allocated) =
      { s.reserve n allocated with chunks := chunks } := by
  unfold Session.reserve
  split_ifs <;> rfl

/-- Nothing else changes. -/
theorem reserve_eq (s : Session) (n : ℤ) (allocated : Bool) :
    s.reserve n allocated = { s with
      message_buffer := (s.reserve n allocated).message_buffer
      message_buffer_length := (s.reserve n allocated).message_buffer_length } := by
  unfold Session.reserve
  split_ifs <;> rfl

/-- What arrives after the prefix of a message. -/
theorem read_prefix {chunks : List (List UInt8)} {header rest : List UInt8} (hne : [] ∉ chunks)
    (hheader : header.length = 9) (h : chunks.flatten = header ++ rest) :
    ∃ chunks', readFully 9 chunks = (some header, chunks') ∧ chunks'.flatten = rest ∧
      [] ∉ chunks' := by
  have hlength : 9 ≤ chunks.flatten.length := by
    rw [h, List.length_append, hheader]
    omega
  obtain ⟨chunks', hread, hrest, hne'⟩ := readFully_eq hne hlength
  rw [h, List.take_left' hheader] at hread
  rw [h, List.drop_left' hheader] at hrest
  exact ⟨chunks', hread, hrest, hne'⟩

theorem Frame.length_header (f : Frame) : (f.digits ++ [newline]).length = 9 := by
  rw [List.length_append, f.length_digits]
  rfl

/-- The beginning of a frame that is longer than the prefix holds a part of the payload. -/
theorem Frame.part_of_incomplete {f : Frame} {tail rest : List UInt8} (hrest : rest ≠ [])
    (htail : tail ++ rest = f.bytes) (hlong : 9 ≤ tail.length) :
    ∃ part, tail = f.digits ++ [newline] ++ part ∧ part.length < f.payload.length := by
  have hprefix : f.digits ++ [newline] <+: tail := by
    refine List.prefix_of_prefix_length_le ?_ ⟨rest, htail⟩ (f.length_header ▸ hlong)
    exact ⟨f.payload, by rw [Frame.bytes, List.append_assoc]; rfl⟩
  obtain ⟨part, rfl⟩ := hprefix
  have hpayload : part ++ rest = f.payload := by
    rw [Frame.bytes, List.append_assoc, List.append_assoc] at htail
    exact (List.cons.inj (List.append_cancel_left htail)).2
  refine ⟨part, rfl, ?_⟩
  have hpos := List.length_pos_iff.mpr hrest
  rw [← hpayload, List.length_append]
  omega

/-- A message whose prefix has been read and for which there is a buffer. -/
theorem message_eq {s : Session} {f : Frame} {chunks : List (List UInt8)}
    (hread : readFully 9 s.chunks = (some (f.digits ++ [newline]), chunks)) {allocated : Bool}
    {size : ℤ} (hsize : (s.reserve f.payload.length allocated).message_buffer = some size)
    (hle : (f.payload.length : ℤ) + 1 ≤ size) {q : Option (List UInt8) × List (List UInt8)}
    (hpayload : readFully f.payload.length chunks = q) :
    s.message allocated = some
      ({ s.reserve f.payload.length allocated with chunks := q.2 }, q.1) := by
  simp only [Session.message, hread, messageLength_frame, reserve_chunks, Session.readMessage,
    hsize, if_pos hle, Int.toNat_natCast, hpayload]

/-- What a message step leads to: a frame or the end of the stream, with a buffer. -/
structure Turned (s : Session) (r : Session × Option (List UInt8)) : Prop where
  parsed : r.2 = s.frames.head?.map Frame.payload
  sound : Sound r.1.advance

/-- No memory is found for the next message. -/
theorem unallocated {s : Session} {n : ℤ} (hn : 0 < n) (hlt : s.message_buffer_length < n) :
    (s.reserve n false).message_buffer = none ∧
      ¬Holds none (s.reserve n false).message_buffer_length := by
  rw [Session.reserve, if_pos hlt]
  refine ⟨rfl, fun h => ?_⟩
  obtain ⟨size, hsize, -⟩ := h hn
  cases hsize

theorem Sound.message_frame {s : Session} (h : Sound s) (hattached : s.attached = true)
    {f : Frame} {frames : List Frame} (hframes : s.frames = f :: frames) (allocated : Bool) :
    ∃ chunks, readFully 9 s.chunks = (some (f.digits ++ [newline]), chunks) ∧
      ((s.message_buffer_length < f.payload.length → allocated = true) →
        ∃ r, s.message allocated = some r ∧ Turned s r) := by
  obtain ⟨hne, hflatten, hincomplete⟩ := h.recorded hattached
  have hstream : s.chunks.flatten =
      (f.digits ++ [newline]) ++ (f.payload ++ (frames.flatMap Frame.bytes ++ s.tail)) := by
    rw [hflatten, hframes, List.flatMap_cons, Frame.bytes]
    simp only [List.append_assoc, List.cons_append, List.nil_append]
  obtain ⟨chunks, hread, hrest, hne'⟩ := read_prefix hne f.length_header hstream
  refine ⟨chunks, hread, fun ha => ?_⟩
  have hpos : 0 < (f.payload.length : ℤ) := Nat.cast_pos.mpr f.pos
  obtain ⟨size, hsize, hle, hsized⟩ := h.sized.reserve hpos ha
  have hlength : f.payload.length ≤ chunks.flatten.length := by
    rw [hrest, List.length_append]
    omega
  obtain ⟨chunks', hread', hrest', hne''⟩ := readFully_eq hne' hlength
  rw [hrest, List.take_left] at hread'
  rw [hrest, List.drop_left] at hrest'
  refine ⟨_, message_eq hread hsize hle hread', by rw [hframes]; rfl, ?_⟩
  rw [reserve_eq]
  unfold Session.advance
  simp only [hframes]
  exact ⟨hsize ▸ hsized, fun _ => ⟨hne'', hrest', hincomplete⟩⟩

/-- At the end of the stream, in a prefix or in a payload, nothing is parsed. -/
theorem Sound.message_end {s : Session} (h : Sound s) (hattached : s.attached = true)
    (hframes : s.frames = []) (allocated : Bool) :
    (readFully 9 s.chunks = (none, []) ∧ ∃ r, s.message allocated = some r ∧ Turned s r) ∨
      ∃ f : Frame, ∃ chunks, readFully 9 s.chunks = (some (f.digits ++ [newline]), chunks) ∧
        ((s.message_buffer_length < f.payload.length → allocated = true) →
          ∃ r, s.message allocated = some r ∧ Turned s r) := by
  obtain ⟨hne, hflatten, f, rest, hrest, htail⟩ := h.recorded hattached
  rw [hframes, List.flatMap_nil, List.nil_append] at hflatten
  have hended : Recorded [] [] [] :=
    ⟨List.not_mem_nil, rfl, f, f.bytes, List.ne_nil_of_length_pos (by rw [f.length_bytes]; omega),
      rfl⟩
  by_cases hshort : s.chunks.flatten.length < 9
  · have hread := readFully_of_short hne hshort
    refine .inl ⟨hread, ({ s with chunks := [] }, none), ?_, ?_⟩
    · simp only [Session.message, hread]
    · refine ⟨by rw [hframes]; rfl, ?_⟩
      unfold Session.advance
      simp only [hframes]
      exact ⟨h.sized, fun _ => hended⟩
  · have hlong : 9 ≤ s.tail.length := hflatten ▸ not_lt.mp hshort
    obtain ⟨part, hpart, hpartLength⟩ := Frame.part_of_incomplete hrest htail hlong
    obtain ⟨chunks, hread, hrest', hne'⟩ :=
      read_prefix hne f.length_header (hflatten.trans hpart)
    refine .inr ⟨f, chunks, hread, fun ha => ?_⟩
    obtain ⟨size, hsize, hle, hsized⟩ := h.sized.reserve (Nat.cast_pos.mpr f.pos) ha
    have hread' := readFully_of_short hne' (hrest'.symm ▸ hpartLength)
    refine ⟨_, message_eq hread hsize hle hread', by rw [hframes]; rfl, ?_⟩
    rw [reserve_eq]
    unfold Session.advance
    simp only [hframes]
    exact ⟨hsize ▸ hsized, fun _ => hended⟩

/-- A message is read as it should be exactly if memory is found for it. -/
theorem Sound.message {s : Session} (h : Sound s) (hattached : s.attached = true)
    {allocated : Bool} {r : Session × Option (List UInt8)} (hr : s.message allocated = some r) :
    (Careful s (.message allocated) → Turned s r) ∧
      (Holds r.1.message_buffer r.1.message_buffer_length → Careful s (.message allocated)) := by
  have hthis : ∀ {P : Prop}, (P → ∃ q, s.message allocated = some q ∧ Turned s q) →
      P → Turned s r := by
    intro P hturn hp
    obtain ⟨q, hq, hturned⟩ := hturn hp
    exact Option.some.inj (hr.symm.trans hq) ▸ hturned
  have hcases : (readFully 9 s.chunks = (none, []) ∧ Turned s r) ∨
      ∃ f : Frame, ∃ chunks, readFully 9 s.chunks = (some (f.digits ++ [newline]), chunks) ∧
        ((s.message_buffer_length < f.payload.length → allocated = true) → Turned s r) := by
    cases hframes : s.frames with
    | nil =>
      obtain ⟨hread, hturn⟩ | ⟨f, chunks, hread, hturn⟩ :=
        h.message_end hattached hframes allocated
      · exact .inl ⟨hread, hthis (fun _ => hturn) trivial⟩
      · exact .inr ⟨f, chunks, hread, hthis hturn⟩
    | cons f frames =>
      obtain ⟨chunks, hread, hturn⟩ := h.message_frame hattached hframes allocated
      exact .inr ⟨f, chunks, hread, hthis hturn⟩
  obtain ⟨hread, hturned⟩ | ⟨f, chunks, hread, hturn⟩ := hcases
  · refine ⟨fun _ => hturned, fun _ buf chunks n hbuf => ?_⟩
    rw [hread] at hbuf
    cases (Prod.mk.inj hbuf).1
  · have hcareful : Careful s (.message allocated) ↔
        (s.message_buffer_length < f.payload.length → allocated = true) := by
      constructor
      · exact fun hc => hc _ _ _ hread (messageLength_frame f)
      · intro ha buf chunks' n hbuf hn
        rw [hread] at hbuf
        obtain ⟨hbuf, -⟩ := Prod.mk.inj hbuf
        rw [← Option.some.inj hbuf, messageLength_frame] at hn
        rwa [← Option.some.inj hn]
    refine ⟨fun hc => hturn (hcareful.mp hc), fun hholds => hcareful.mpr fun hlt => ?_⟩
    by_contra ha
    rw [Bool.not_eq_true] at ha
    subst ha
    have hpos : 0 < (f.payload.length : ℤ) := Nat.cast_pos.mpr f.pos
    obtain ⟨hnull, hnot⟩ := unallocated hpos hlt
    simp only [Session.message, hread, messageLength_frame, reserve_chunks, Session.readMessage,
      hnull, Option.some.injEq] at hr
    subst hr
    exact hnot hholds

theorem Sound.advance_buffer (s : Session) : s.advance.buffer = s.buffer := by
  unfold Session.advance
  split <;> rfl

/-- Closing the transport leaves a sound state exactly where there is no buffer. -/
theorem Sound.free {s : Session} (h : Sound s) :
    (Holds s.free.message_buffer s.free.message_buffer_length ↔
        (s.attached = true → s.message_buffer = none)) ∧
      ((s.attached = true → s.message_buffer = none) →
        Sized s.free.message_buffer s.free.message_buffer_length ∧ s.free.attached = false) := by
  unfold Session.free
  split_ifs with hattached
  · have hsized : s.message_buffer = none → Sized none s.message_buffer_length :=
      fun hnone => hnone ▸ h.sized
    refine ⟨⟨fun hholds _ => ?_, fun hnone => (hsized (hnone hattached)).holds⟩,
      fun hnone => ⟨hsized (hnone hattached), rfl⟩⟩
    obtain ⟨hnone, -⟩ | ⟨size, -, hpos, -⟩ := h.sized
    · exact hnone
    · obtain ⟨size, hsize, -⟩ := hholds hpos
      cases hsize
  · have hfalse : s.attached = false := Bool.not_eq_true _ ▸ hattached
    exact ⟨iff_of_true h.sized.holds fun hatt => absurd hatt hattached, fun _ => ⟨h.sized, hfalse⟩⟩

theorem sound_init : Sound debugger.init := ⟨.inl ⟨rfl, rfl⟩, nofun⟩

/-- A step shows what is right exactly if it is careful. -/
theorem Sound.step {s s' : Session} {a : Action} {o : List Seen} (h : Sound s)
    (hs : debugger.step s a = some (s', o)) :
    ((∀ e ∈ o, e.Faithful) ↔ Careful s a) ∧ (Careful s a → Sound s') := by
  cases a with
  | attach incoming =>
    obtain ⟨rfl, rfl⟩ := Prod.mk.inj (Option.some.inj hs)
    rw [List.forall_mem_singleton]
    obtain ⟨hiff, hsized⟩ := h.free
    refine ⟨hiff, fun hc => ⟨(hsized hc).1, fun _ => ?_⟩⟩
    exact ⟨incoming.nonempty, incoming.flatten, incoming.incomplete⟩
  | message allocated =>
    obtain ⟨hattached, hs⟩ := Option.ite_none_right_eq_some.mp hs
    obtain ⟨r, hr, heq⟩ := Option.map_eq_some_iff.mp hs
    obtain ⟨rfl, rfl⟩ := Prod.mk.inj heq
    obtain ⟨hturn, hback⟩ := h.message hattached hr
    refine ⟨?_, fun hc => (hturn hc).sound⟩
    rw [List.forall_mem_cons, List.forall_mem_singleton]
    constructor
    · exact fun hseen => hback hseen.2
    · intro hc
      refine ⟨(hturn hc).parsed, ?_⟩
      have hsized := (hturn hc).sound.sized.holds
      have hbuffer := Sound.advance_buffer r.1
      rw [Session.buffer, Session.buffer, Seen.buffer.injEq] at hbuffer
      rwa [hbuffer.1, hbuffer.2] at hsized
  | send value sents =>
    have hs : (match js_transport_write_message_newline value sents with
      | (true, bytes) => some (s, [Seen.wrote value bytes])
      | (false, _) => some (s, [])) = some (s', o) := hs
    simp only [Careful]
    split at hs
    · rename_i bytes hwrite
      obtain ⟨rfl, rfl⟩ := Prod.mk.inj (Option.some.inj hs)
      rw [hwrite, List.forall_mem_singleton]
      exact ⟨(written_iff hwrite).trans ⟨fun hlt _ => hlt, fun hlt => hlt rfl⟩, fun _ => h⟩
    · rename_i bytes hwrite
      obtain ⟨rfl, rfl⟩ := Prod.mk.inj (Option.some.inj hs)
      rw [hwrite]
      exact ⟨iff_of_true (List.forall_mem_nil _) nofun, fun _ => h⟩
  | free =>
    obtain ⟨rfl, rfl⟩ := Prod.mk.inj (Option.some.inj hs)
    rw [List.forall_mem_singleton]
    obtain ⟨hiff, hsized⟩ := h.free
    refine ⟨hiff, fun hc => ⟨(hsized hc).1, fun hattached => ?_⟩⟩
    rw [(hsized hc).2] at hattached
    cases hattached

/-- **Framing and buffer.** -/
theorem framing_iff (as : List Action) (r : Session × List Seen)
    (hr : debugger.run debugger.init as = some r) :
    (∀ e ∈ r.2, e.Faithful) ↔ debugger.Meets Careful debugger.init as := by
  refine debugger.run_accepts_iff (I := fun s h => Sound s ∧ ∀ e ∈ h, e.Faithful)
    (A := fun h => ∀ e ∈ h, e.Faithful) (fun h o hA e he => hA e (List.mem_append_left _ he))
    (fun s h hI => hI.2) ?_ as _ [] r ⟨sound_init, List.forall_mem_nil _⟩ hr
  intro s h a s' o ⟨hsound, hh⟩ hs
  obtain ⟨hiff, hnext⟩ := hsound.step hs
  rw [List.forall_mem_append, and_iff_right hh]
  exact ⟨hiff, fun hc => ⟨hnext hc, hiff.mpr hc⟩⟩

/-- The message `{}`. -/
def emptyObject : Frame where
  digits := [48, 48, 48, 48, 48, 48, 48, 50]
  payload := [123, 125]
  length_digits := rfl
  isDigit := by decide +kernel
  value := rfl
  pos := by decide
  lt := by decide

/-- The message `{}`, cut in two places, and nothing more. -/
def oneMessage : Incoming where
  frames := [emptyObject]
  tail := []
  chunks := [[48, 48, 48], [48, 48, 48, 48, 50, 10, 123], [125]]
  nonempty := by decide
  flatten := rfl
  incomplete := ⟨emptyObject, emptyObject.bytes, by decide, rfl⟩

/-- A message is read, another is sent in two writes, and the end of the stream is reached. -/
theorem framing_iff_one :
    ∃ r, debugger.run debugger.init
        [.attach oneMessage, .message true, .send [110] [4, 9, 9, 9], .message true] = some r ∧
      ∀ e ∈ r.2, e.Faithful := by
  obtain ⟨r, hr⟩ := Option.isSome_iff_exists.mp (show (debugger.run debugger.init
    [.attach oneMessage, .message true, .send [110] [4, 9, 9, 9], .message true]).isSome by
      decide +kernel)
  refine ⟨r, hr, (framing_iff _ r hr).mpr ⟨nofun, fun _ _ => ?_⟩⟩
  refine ⟨fun _ _ _ _ _ _ => rfl, fun _ _ => ?_⟩
  refine ⟨fun _ => by decide, fun _ _ => ?_⟩
  exact ⟨fun _ _ _ _ _ _ => rfl, fun _ _ => trivial⟩

/-- After a reconnect the length is still that of the buffer that has been given back, and
    the next message of that length is lost. -/
theorem reconnect_loses :
    ∃ r, debugger.run debugger.init
        [.attach oneMessage, .message true, .free, .attach oneMessage, .message true] = some r ∧
      .buffer none 2 ∈ r.2 ∧ .message (some [123, 125]) none ∈ r.2 ∧ ¬∀ e ∈ r.2, e.Faithful := by
  have hrun : ((debugger.run debugger.init
      [.attach oneMessage, .message true, .free, .attach oneMessage, .message true]).map fun r =>
        decide (.buffer none 2 ∈ r.2 ∧ .message (some [123, 125]) none ∈ r.2)) = some true := by
    decide +kernel
  obtain ⟨r, hr, hseen⟩ := Option.map_eq_some_iff.mp hrun
  obtain ⟨hbuffer, hlost⟩ := of_decide_eq_true hseen
  refine ⟨r, hr, hbuffer, hlost, fun h => ?_⟩
  have hparsed : (none : Option (List UInt8)) = some [123, 125] :=
    h (.message (some [123, 125]) none) hlost
  cases hparsed

end JSEngine.Debugger.Framing
