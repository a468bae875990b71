import Mathlib.Data.List.TakeWhile
import JSEngine.Scalars.Defaults

/-!
# Stack traces in `JSEngineException`

Model of `JSEngineException.java` lines 29–126: the message and the stack that it
takes from a text of script, the splicing of the two kinds of stacks, and the
pattern of a stack line. The pattern is matched as `java.util.regex` does, trying
the alternatives in order.

* `addJSStack_isOk_iff`: a text that is spliced in has no line whose number is
  beyond `int`;
* `addJavaStack_append`, `addJavaStack_of_notMem`: the text needs a second line;
* `getErrorMessage_append`: the message is the first line.
-/

namespace JSEngine.Exceptions

open JSEngine.Java JSEngine.Scalars

/-- Why a function of the class throws. -/
inductive Failure
  | numberFormat
  | arrayIndexOutOfBounds
  | nullPointer
  deriving DecidableEq

/-- A `StackTraceElement`. -/
structure StackTraceElement where
  className : JString
  methodName : JString
  fileName : JRef JString
  lineNumber : ℤ
  deriving DecidableEq

abbrev StackTrace := List StackTraceElement

/-! ## The pattern of a line -/

def newline : BitVec 16 := 0x0A#16

/-- `\s`. -/
def isSpace (c : BitVec 16) : Bool :=
  c == 0x20#16 || c == 0x09#16 || c == 0x0A#16 || c == 0x0B#16 || c == 0x0C#16 || c == 0x0D#16

/-- What `.` does not match. -/
def isLineTerminator (c : BitVec 16) : Bool :=
  c == 0x0A#16 || c == 0x0D#16 || c == 0x85#16 || c == 0x2028#16 || c == 0x2029#16

/-- `\d`. -/
def isDigit (c : BitVec 16) : Bool := 0x30 ≤ c.toNat && c.toNat < 0x3A

/-- `(.*?)` before something: the shortest text before a match of `next`. -/
def lazily {α : Type} (next : JString → Option α) : JString → Option (JString × α)
  | [] => (next []).map fun a => ([], a)
  | c :: s =>
    match next (c :: s) with
    | some a => some ([], a)
    | none =>
      if isLineTerminator c then none
      else (lazily next s).map fun (text, a) => (c :: text, a)

/-- `(\d+)?\).*$`: the digits, all of them, as what follows them is no digit. -/
def matchLine (s : JString) : Option (Option JString) :=
  match s.dropWhile isDigit with
  | c :: rest =>
    if c == 0x29#16 && rest.all (!isLineTerminator ·) then
      some (if s.takeWhile isDigit = [] then none else some (s.takeWhile isDigit))
    else none
  | [] => none

/-- `:?(\d+)?\).*$`. -/
def matchColon (s : JString) : Option (Option JString) :=
  match s with
  | c :: rest => (if c == 0x3A#16 then matchLine rest else none).or (matchLine s)
  | [] => none

/-- ` \((.*?):?(\d+)?\).*$`: the file and the digits. -/
def matchFile (s : JString) : Option (JString × Option JString) :=
  match s with
  | c :: d :: rest => if c == 0x20#16 && d == 0x28#16 then lazily matchColon rest else none
  | _ => none

/-- `]? \((.*?):?(\d+)?\).*$`. -/
def matchClosing (s : JString) : Option (JString × Option JString) :=
  match s with
  | c :: rest => (if c == 0x5D#16 then matchFile rest else none).or (matchFile s)
  | [] => none

/-- `(\[?)(.*?)]? \((.*?):?(\d+)?\).*$`: the function, the file and the digits. -/
def matchOpening (s : JString) : Option (JString × JString × Option JString) :=
  match s with
  | c :: rest =>
    (if c == 0x5B#16 then lazily matchClosing rest else none).or (lazily matchClosing s)
  | [] => none

/-- `STACK_TRACE_PATTERN` (lines 34–35), matched against the whole text. -/
def matchPattern (s : JString) : Option (JString × JString × Option JString) :=
  match s.dropWhile isSpace with
  | a :: t :: blank :: rest =>
    if a == 0x61#16 && t == 0x74#16 && blank == 0x20#16 then matchOpening rest else none
  | _ => none

/-- `Integer.parseInt` of digits. -/
def parseDigits (s : JString) : Except Failure ℤ :=
  match parseIntegral 32 s with
  | some n => .ok n
  | none => .error .numberFormat

/-- `toStackTraceElement` (lines 115–126); `none` for null. Group 1 is never null. -/
def toStackTraceElement (s : JString) : Except Failure (Option StackTraceElement) :=
  match matchPattern s with
  | none => .ok none
  | some (function, file, digits) =>
    match digits with
    | none => .ok (some ⟨jstr "<javascript>", function, some file, 1⟩)
    | some digits => (parseDigits digits).map fun line =>
      some ⟨jstr "<javascript>", function, some file, line⟩

/-! ## Splicing -/

/-- `detailMessage.split("\n", -1)`. -/
def lines (detailMessage : JString) : List JString := detailMessage.splitOn newline

/-- The elements of the lines behind the first one, those that are null left out. -/
def jsElements : List JString → Except Failure StackTrace
  | [] => .ok []
  | line :: lines =>
    match toStackTraceElement line with
    | .error e => .error e
    | .ok element => (jsElements lines).map fun elements => element.toList ++ elements

/-- The loop over the stack of the exception (lines 66–77): the elements go in front
    of the first frame that is one of those of the caller. -/
def splice (selfTrace : StackTrace) (elements : Except Failure StackTrace) :
    StackTrace → Except Failure StackTrace
  | [] => .ok []
  | frame :: trace =>
    if frame ∈ selfTrace then elements.map (· ++ frame :: trace)
    else (splice selfTrace elements trace).map (frame :: ·)

/-- `addJSStack` (lines 48–79): the new stack of the exception, whose stack is `trace`;
    `selfTrace` are the first three frames of the caller. -/
def addJSStack (selfTrace trace : StackTrace) (detailMessage : JRef JString) :
    Except Failure StackTrace :=
  match detailMessage with
  | none => .error .nullPointer
  | some detailMessage =>
    if (lines detailMessage).length ≤ 1 then .ok trace
    else splice selfTrace (jsElements (lines detailMessage).tail) trace

/-- The text of a reference in `String.format`. -/
def formatted (s : JRef JString) : JString := s.getD (jstr "null")

/-- The line for a frame (line 103). -/
def frameLine (frame : StackTraceElement) : JString :=
  jstr "\n    at [" ++ frame.className ++ [0x2E#16] ++ frame.methodName ++ jstr "] (" ++
    formatted frame.fileName ++ [0x3A#16] ++ decimal frame.lineNumber ++ [0x29#16]

/-- The loop of `addJavaStack` (lines 98–104). -/
def frameLines (selfTrace : StackTrace) (detailMessage : JString) : StackTrace → JString
  | [] => []
  | frame :: trace =>
    if frame ∈ selfTrace then detailMessage ++ (frame :: trace).flatMap frameLine
    else frameLine frame ++ frameLines selfTrace detailMessage trace

/-- `addJavaStack` (lines 82–106): the text is split at its first newline. -/
def addJavaStack (selfTrace trace : StackTrace) (detailMessage : JString) :
    Except Failure JString :=
  match detailMessage.dropWhile (· ≠ newline) with
  | [] => .error .arrayIndexOutOfBounds
  | _ :: rest => .ok (detailMessage.takeWhile (· ≠ newline) ++ frameLines selfTrace rest trace)

section

local instance lawfulBEq_unit : LawfulBEq (BitVec 16) := inferInstance

/-- `getErrorMessage` (lines 108–113). -/
def getErrorMessage (detailMessage : JString) : JString :=
  if newline ∈ detailMessage ∧ detailMessage.head? ≠ some newline then
    detailMessage.takeWhile (· ≠ newline)
  else detailMessage

end

/-! ## Where they throw -/

/-- No line behind the first one is a stack line with a number beyond `int`. -/
def Parses (detailMessage : JString) : Prop :=
  ∀ line ∈ (lines detailMessage).tail, ∀ e, toStackTraceElement line ≠ .error e

theorem jsElements_isOk_iff (ls : List JString) :
    (∃ elements, jsElements ls = .ok elements) ↔
      ∀ line ∈ ls, ∀ e, toStackTraceElement line ≠ .error e := by
  induction ls with
  | nil => simp [jsElements]
  | cons line ls ih =>
    rw [List.forall_mem_cons, ← ih]
    cases hline : toStackTraceElement line with
    | error e => simp [jsElements, hline]
    | ok element =>
      have hstep : jsElements (line :: ls) =
          (jsElements ls).map fun elements => element.toList ++ elements := by
        simp only [jsElements, hline]
      rw [hstep]
      cases jsElements ls with
      | error e => simp [Except.map]
      | ok elements => simp [Except.map]

/-- The elements are spliced in where a frame of the caller is in the stack. -/
theorem splice_isOk_iff (selfTrace : StackTrace) (elements : Except Failure StackTrace)
    (trace : StackTrace) :
    (∃ trace', splice selfTrace elements trace = .ok trace') ↔
      (∀ frame ∈ trace, frame ∉ selfTrace) ∨ ∃ es, elements = .ok es := by
  induction trace with
  | nil => simp [splice]
  | cons frame trace ih =>
    by_cases hframe : frame ∈ selfTrace
    · have hstep : splice selfTrace elements (frame :: trace) =
          elements.map (· ++ frame :: trace) := if_pos hframe
      rw [hstep, or_iff_right fun h => h frame List.mem_cons_self hframe]
      cases elements <;> simp [Except.map]
    · have hstep : splice selfTrace elements (frame :: trace) =
          (splice selfTrace elements trace).map (frame :: ·) := if_neg hframe
      rw [hstep, List.forall_mem_cons, and_iff_right hframe, ← ih]
      cases splice selfTrace elements trace <;> simp [Except.map]

/-- The text is spliced into the stack, if it has a second line and the stack a frame
    of the caller. -/
def Spliced (selfTrace trace : StackTrace) (detailMessage : JString) : Prop :=
  newline ∈ detailMessage ∧ ∃ frame ∈ trace, frame ∈ selfTrace

/-- A text with a newline has the first line and the lines of the rest. -/
theorem lines_append {first : JString} (h : newline ∉ first) (rest : JString) :
    lines (first ++ newline :: rest) = first :: lines rest :=
  List.splitOn_append_cons_self_of_not_mem h rest

theorem lines_of_notMem {text : JString} (h : newline ∉ text) : lines text = [text] :=
  List.splitOn_eq_singleton h

theorem length_lines (text : JString) : (lines text).length ≤ 1 ↔ newline ∉ text := by
  constructor
  · intro hlen hmem
    obtain ⟨first, rest, rfl, hfirst⟩ := List.eq_append_cons_of_mem hmem
    have hrest : 0 < (lines rest).length := List.length_pos_iff.mpr (List.splitOn_ne_nil _ _)
    rw [lines_append hfirst, List.length_cons] at hlen
    omega
  · intro h
    rw [lines_of_notMem h]
    exact Nat.le_refl 1

/-- `addJSStack` fails only in the lines of a text that it splices in. -/
theorem addJSStack_isOk_iff (selfTrace trace : StackTrace) (detailMessage : JString) :
    (∃ trace', addJSStack selfTrace trace (some detailMessage) = .ok trace') ↔
      (Spliced selfTrace trace detailMessage → Parses detailMessage) := by
  by_cases hlines : newline ∈ detailMessage
  · have hstep : addJSStack selfTrace trace (some detailMessage) =
        splice selfTrace (jsElements (lines detailMessage).tail) trace :=
      if_neg fun hle => (length_lines detailMessage).mp hle hlines
    rw [hstep, splice_isOk_iff, jsElements_isOk_iff]
    constructor
    · rintro (hnone | hparses) ⟨-, frame, hframe, hself⟩
      · exact absurd hself (hnone frame hframe)
      · exact hparses
    · intro h
      by_cases hframe : ∃ frame ∈ trace, frame ∈ selfTrace
      · exact Or.inr (h ⟨hlines, hframe⟩)
      · exact Or.inl fun frame hmem hself => hframe ⟨frame, hmem, hself⟩
  · have hstep : addJSStack selfTrace trace (some detailMessage) = .ok trace :=
      if_pos ((length_lines detailMessage).mpr hlines)
    rw [hstep]
    exact iff_of_true ⟨trace, rfl⟩ fun h => absurd h.1 hlines

theorem takeWhile_line {first : JString} (h : newline ∉ first) (rest : JString) :
    (first ++ newline :: rest).takeWhile (· ≠ newline) = first := by
  have hfirst : ∀ c ∈ first, decide (c ≠ newline) = true := by
    intro c hc
    exact decide_eq_true fun heq => h (heq ▸ hc)
  rw [List.takeWhile_append_of_pos hfirst, List.takeWhile_cons_of_neg (by simp), List.append_nil]

theorem dropWhile_line {first : JString} (h : newline ∉ first) (rest : JString) :
    (first ++ newline :: rest).dropWhile (· ≠ newline) = newline :: rest := by
  have hfirst : ∀ c ∈ first, decide (c ≠ newline) = true := by
    intro c hc
    exact decide_eq_true fun heq => h (heq ▸ hc)
  rw [List.dropWhile_append_of_pos hfirst, List.dropWhile_cons_of_neg (by simp)]

/-- `addJavaStack` puts the lines of the stack around the rest of the text. -/
theorem addJavaStack_append (selfTrace trace : StackTrace) {first : JString}
    (h : newline ∉ first) (rest : JString) :
    addJavaStack selfTrace trace (first ++ newline :: rest) =
      .ok (first ++ frameLines selfTrace rest trace) := by
  unfold addJavaStack
  rw [dropWhile_line h, takeWhile_line h]

/-- A text of one line is refused. -/
theorem addJavaStack_of_notMem (selfTrace trace : StackTrace) {text : JString}
    (h : newline ∉ text) : addJavaStack selfTrace trace text = .error .arrayIndexOutOfBounds := by
  have hnone : text.dropWhile (· ≠ newline) = [] := by
    rw [List.dropWhile_eq_nil_iff]
    intro c hc
    exact decide_eq_true fun heq => h (heq ▸ hc)
  unfold addJavaStack
  rw [hnone]

theorem addJavaStack_isOk (selfTrace trace : StackTrace) {text : JString} (h : newline ∈ text) :
    ∃ newStack, addJavaStack selfTrace trace text = .ok newStack := by
  obtain ⟨first, rest, rfl, hfirst⟩ := List.eq_append_cons_of_mem h
  exact ⟨_, addJavaStack_append selfTrace trace hfirst rest⟩

/-- The message of a text is its first line, unless this is empty. -/
theorem getErrorMessage_append {first : JString} (hne : first ≠ []) (h : newline ∉ first)
    (rest : JString) : getErrorMessage (first ++ newline :: rest) = first := by
  have hhead : (first ++ newline :: rest).head? ≠ some newline := by
    cases first with
    | nil => exact absurd rfl hne
    | cons c first => exact fun heq => h (Option.some.inj heq ▸ List.mem_cons_self)
  unfold getErrorMessage
  rw [if_pos ⟨List.mem_append_right _ List.mem_cons_self, hhead⟩, takeWhile_line h]

/-- It is the first part of a text exactly where this is a line, and not empty. -/
theorem getErrorMessage_append_iff (t rest : JString) :
    getErrorMessage (t ++ newline :: rest) = t ↔ t ≠ [] ∧ newline ∉ t := by
  constructor
  · intro h
    have hmem : newline ∈ t ++ newline :: rest := List.mem_append_right _ List.mem_cons_self
    unfold getErrorMessage at h
    split_ifs at h with hline
    · constructor
      · rintro rfl
        exact hline.2 rfl
      · intro hnewline
        rw [← h] at hnewline
        exact absurd (List.mem_takeWhile_imp hnewline) (by simp)
    · have hlen := congrArg List.length h
      rw [List.length_append, List.length_cons] at hlen
      omega
  · rintro ⟨hne, hline⟩
    exact getErrorMessage_append hne hline rest

/-- A text is its own message exactly where it has one line, or begins with an empty
    one. -/
theorem getErrorMessage_eq_self_iff (t : JString) :
    getErrorMessage t = t ↔ (newline ∈ t → t.head? = some newline) := by
  constructor
  · intro h hmem
    by_contra hhead
    unfold getErrorMessage at h
    rw [if_pos ⟨hmem, hhead⟩] at h
    rw [← h] at hmem
    exact absurd (List.mem_takeWhile_imp hmem) (by simp)
  · intro h
    exact if_neg fun hmem => hmem.2 (h hmem.1)

/-- `t` is the message of the text: its first line, which is not empty, or all of it. -/
def IsMessage (t detailMessage : JString) : Prop :=
  (detailMessage = t ∧ (newline ∈ t → t.head? = some newline)) ∨
    ∃ rest, detailMessage = t ++ newline :: rest ∧ t ≠ [] ∧ newline ∉ t

theorem getErrorMessage_eq_iff (t detailMessage : JString) :
    getErrorMessage detailMessage = t ↔ IsMessage t detailMessage := by
  constructor
  · rintro rfl
    by_cases hline : newline ∈ detailMessage ∧ detailMessage.head? ≠ some newline
    · obtain ⟨first, rest, rfl, hfirst⟩ := List.eq_append_cons_of_mem hline.1
      have hne : first ≠ [] := by
        rintro rfl
        exact hline.2 rfl
      rw [getErrorMessage_append hne hfirst]
      exact Or.inr ⟨rest, rfl, hne, hfirst⟩
    · have hself : getErrorMessage detailMessage = detailMessage := if_neg hline
      rw [hself]
      exact Or.inl ⟨rfl, (getErrorMessage_eq_self_iff detailMessage).mp hself⟩
  · rintro (⟨rfl, hself⟩ | ⟨rest, rfl, hne, hline⟩)
    · exact (getErrorMessage_eq_self_iff detailMessage).mpr hself
    · exact getErrorMessage_append hne hline rest

end JSEngine.Exceptions
