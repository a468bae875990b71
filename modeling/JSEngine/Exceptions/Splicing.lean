import Mathlib.Tactic.SplitIfs
import JSEngine.Exceptions.StackLines

/-!
# Splicing the two kinds of stacks

What `addJSStack` and `addJavaStack` are for: the frames of script stand in the stack of
Java right before the first frame of the caller, and the merged text can be read back.

* `splicing_iff`: `addJSStack` and the constructor give the stack with the frames of the
  text exactly where the numbers that are read fit `int`;
* `merged_stack_decodes_iff`: the merged text gives back all frames exactly where every
  frame of Java is `Plain` and no frame of script is joined to another line or dropped.
-/

namespace JSEngine.Exceptions

open JSEngine.Java JSEngine.Scalars

/-! ## What is spliced in -/

/-- The frame on a line; a line that cannot be read is skipped. -/
def parsed (line : JString) : Option StackTraceElement :=
  match toStackTraceElement line with
  | .ok element => element
  | .error _ => none

/-- The frames on the lines 2.. of a text. -/
def jsFrames (detailMessage : JString) : StackTrace := (lines detailMessage).tail.filterMap parsed

/-- The stack with the frames once before the first frame of the caller. -/
def inserted (selfTrace elements trace : StackTrace) : StackTrace :=
  if ∃ frame ∈ trace, frame ∈ selfTrace then
    trace.takeWhile (· ∉ selfTrace) ++ elements ++ trace.dropWhile (· ∉ selfTrace)
  else trace

/-- The constructor (lines 39–42): the message and the stack, which was `trace`. -/
def newJSEngineException (selfTrace trace : StackTrace) (detailMessage : JString) :
    Except Failure (JString × StackTrace) :=
  (addJSStack selfTrace trace (some detailMessage)).map (getErrorMessage detailMessage, ·)

theorem parsed_of_ok {line : JString} {element : Option StackTraceElement}
    (h : toStackTraceElement line = .ok element) : parsed line = element := by
  unfold parsed
  rw [h]

theorem filterMap_of_jsElements {ls : List JString} {elements : StackTrace}
    (h : jsElements ls = .ok elements) : elements = ls.filterMap parsed := by
  induction ls generalizing elements with
  | nil => exact (Except.ok.inj h).symm
  | cons line ls ih =>
    cases hline : toStackTraceElement line with
    | error e => simp [jsElements, hline] at h
    | ok element =>
      simp only [jsElements, hline] at h
      cases hrest : jsElements ls with
      | error e =>
        rw [hrest] at h
        cases h
      | ok rest =>
        rw [hrest] at h
        obtain rfl := Except.ok.inj h
        rw [List.filterMap_cons, parsed_of_ok hline, ← ih hrest]
        cases element <;> rfl

/-- The elements of lines that do not throw. -/
theorem jsElements_eq_ok_iff (ls : List JString) (elements : StackTrace) :
    jsElements ls = .ok elements ↔
      (∀ line ∈ ls, ∀ e, toStackTraceElement line ≠ .error e) ∧ elements = ls.filterMap parsed := by
  constructor
  · intro h
    exact ⟨(jsElements_isOk_iff ls).mp ⟨elements, h⟩, filterMap_of_jsElements h⟩
  · rintro ⟨hok, rfl⟩
    obtain ⟨elements, helements⟩ := (jsElements_isOk_iff ls).mpr hok
    rw [helements, filterMap_of_jsElements helements]

theorem splice_eq_inserted (selfTrace elements trace : StackTrace) :
    splice selfTrace (.ok elements) trace = .ok (inserted selfTrace elements trace) := by
  induction trace with
  | nil => rfl
  | cons frame trace ih =>
    unfold inserted
    by_cases hframe : frame ∈ selfTrace
    · have hstep : splice selfTrace (.ok elements) (frame :: trace) =
          .ok (elements ++ frame :: trace) := if_pos hframe
      rw [hstep, if_pos ⟨frame, List.mem_cons_self, hframe⟩, List.takeWhile_cons_of_neg (by simpa),
        List.dropWhile_cons_of_neg (by simpa), List.nil_append]
    · have hstep : splice selfTrace (.ok elements) (frame :: trace) =
          (splice selfTrace (.ok elements) trace).map (frame :: ·) := if_neg hframe
      have hiff : (∃ g ∈ frame :: trace, g ∈ selfTrace) ↔ ∃ g ∈ trace, g ∈ selfTrace := by
        simp [hframe]
      rw [hstep, ih, List.takeWhile_cons_of_pos (by simpa), List.dropWhile_cons_of_pos (by simpa)]
      simp only [hiff, inserted, Except.map]
      split_ifs <;> rfl

/-- Without frames nothing is inserted. -/
theorem inserted_nil (selfTrace trace : StackTrace) : inserted selfTrace [] trace = trace := by
  unfold inserted
  rw [List.append_nil, List.takeWhile_append_dropWhile, ite_self]

theorem inserted_of_forall {selfTrace trace : StackTrace} (elements : StackTrace)
    (h : ∀ frame ∈ trace, frame ∉ selfTrace) : inserted selfTrace elements trace = trace :=
  if_neg fun ⟨frame, hframe, hself⟩ => h frame hframe hself

/-- Where no frame is one of the caller, the lines are not read. -/
theorem splice_of_forall {selfTrace trace : StackTrace} (elements : Except Failure StackTrace)
    (h : ∀ frame ∈ trace, frame ∉ selfTrace) : splice selfTrace elements trace = .ok trace := by
  induction trace with
  | nil => rfl
  | cons frame trace ih =>
    obtain ⟨hframe, h⟩ := List.forall_mem_cons.mp h
    have hstep : splice selfTrace elements (frame :: trace) =
        (splice selfTrace elements trace).map (frame :: ·) := if_neg hframe
    rw [hstep, ih h]
    rfl

/-- The splicing does what it is for, if it does not fail. -/
theorem addJSStack_of_isOk {selfTrace trace trace' : StackTrace} {detailMessage : JString}
    (h : addJSStack selfTrace trace (some detailMessage) = .ok trace') :
    trace' = inserted selfTrace (jsFrames detailMessage) trace := by
  by_cases hlines : newline ∈ detailMessage
  · have hstep : addJSStack selfTrace trace (some detailMessage) =
        splice selfTrace (jsElements (lines detailMessage).tail) trace :=
      if_neg fun hle => (length_lines detailMessage).mp hle hlines
    rw [hstep] at h
    cases helements : jsElements (lines detailMessage).tail with
    | ok elements =>
      rw [helements, splice_eq_inserted] at h
      rw [← Except.ok.inj h, ((jsElements_eq_ok_iff _ _).mp helements).2]
      rfl
    | error e =>
      rw [helements] at h
      obtain hnone | ⟨_, hok⟩ := (splice_isOk_iff selfTrace (.error e) trace).mp ⟨trace', h⟩
      · rw [splice_of_forall _ hnone] at h
        rw [inserted_of_forall _ hnone]
        exact (Except.ok.inj h).symm
      · cases hok
  · have hstep : addJSStack selfTrace trace (some detailMessage) = .ok trace :=
      if_pos ((length_lines detailMessage).mpr hlines)
    have hnil : jsFrames detailMessage = [] := by
      unfold jsFrames
      rw [lines_of_notMem hlines]
      rfl
    rw [hstep] at h
    rw [hnil, inserted_nil]
    exact (Except.ok.inj h).symm

/-- **Splicing.** The exception gets the frames of the text, and nothing is thrown, exactly
    where no number that is read is beyond `int`. -/
theorem splicing_iff (selfTrace trace : StackTrace) (detailMessage : JString) :
    (addJSStack selfTrace trace (some detailMessage) =
        .ok (inserted selfTrace (jsFrames detailMessage) trace) ∧
      newJSEngineException selfTrace trace detailMessage =
        .ok (getErrorMessage detailMessage, inserted selfTrace (jsFrames detailMessage) trace)) ↔
      (Spliced selfTrace trace detailMessage →
        ∀ line ∈ (lines detailMessage).tail, NumberFits line) := by
  rw [← parses_iff, ← addJSStack_isOk_iff]
  constructor
  · rintro ⟨h, -⟩
    exact ⟨_, h⟩
  · rintro ⟨trace', h⟩
    obtain rfl := addJSStack_of_isOk h
    refine ⟨h, ?_⟩
    unfold newJSEngineException
    rw [h]
    rfl

/-- The first frame of the caller, in examples. -/
def caller : StackTraceElement := ⟨jstr "C", jstr "m", none, 1⟩

theorem number_overflows : ¬ NumberFits (jstr " at f (y:9999999999)") := by
  intro h
  have hmatch : matchPattern (jstr " at f (y:9999999999)") =
      some (jstr "f", jstr "y", some (jstr "9999999999")) := by decide +kernel
  exact absurd (h _ _ _ hmatch) (by decide +kernel)

/-- A stack line with a number beyond `int` makes the splicing throw. -/
theorem splicing_fails :
    addJSStack [caller] [caller] (some (jstr "x\n at f (y:9999999999)")) ≠
      .ok (inserted [caller] (jsFrames (jstr "x\n at f (y:9999999999)")) [caller]) := by
  intro h
  have hlines : lines (jstr "x\n at f (y:9999999999)") =
      [jstr "x", jstr " at f (y:9999999999)"] := by decide +kernel
  have hparses := (addJSStack_isOk_iff _ _ _).mp ⟨_, h⟩
    ⟨by decide +kernel, caller, List.mem_cons_self, List.mem_cons_self⟩
  rw [parses_iff, hlines] at hparses
  exact number_overflows (hparses _ List.mem_cons_self)

/-! ## What a merged text gives back -/

/-- Every line of the stack of script is a frame, or is empty. -/
def WellFormed (stack : JString) : Prop :=
  ∀ line ∈ lines stack, line = [] ∨ ∃ element, toStackTraceElement line = .ok (some element)

/-- The merged text gives back all frames, in their order, those of script before the
    first frame of the caller; the line of the message is no frame. -/
def Recovered (selfTrace trace : StackTrace) (message stack : JString) : Prop :=
  ∃ text, addJavaStack selfTrace trace (message ++ newline :: stack) = .ok text ∧
    jsElements (lines text).tail = .ok
      ((trace.takeWhile (· ∉ selfTrace)).map named ++ (lines stack).filterMap parsed ++
        (trace.dropWhile (· ∉ selfTrace)).map named)

/-! ### The lines of a merged text -/

theorem lines_append_newline (text rest : JString) :
    lines (text ++ newline :: rest) = lines text ++ lines rest :=
  List.splitOnP_append_cons text rest (by rfl)

/-- The frames of Java are on lines of their own. -/
theorem lines_frames (text : JString) {frames : StackTrace}
    (h : ∀ frame ∈ frames, newline ∉ frameText frame) :
    lines (text ++ frames.flatMap frameLine) = lines text ++ frames.map frameText := by
  induction frames generalizing text with
  | nil => simp
  | cons frame frames ih =>
    obtain ⟨hframe, h⟩ := List.forall_mem_cons.mp h
    have hassoc : text ++ (frame :: frames).flatMap frameLine =
        (text ++ newline :: frameText frame) ++ frames.flatMap frameLine := by
      rw [List.flatMap_cons, frameLine_eq, List.append_assoc]
    rw [hassoc, ih _ h, lines_append_newline, lines_of_notMem hframe]
    simp

theorem length_lines_cons (c : BitVec 16) (text : JString) :
    (lines (c :: text)).length = (lines text).length + if c = newline then 1 else 0 := by
  unfold lines
  rw [List.splitOn_cons_eq_if_modifyHead]
  by_cases hc : c = newline
  · simp [hc]
  · simp [hc]

/-- A text without a newline adds no line. -/
theorem length_lines_append (text : JString) {first : JString} (h : newline ∉ first) :
    (lines (text ++ first)).length = (lines text).length := by
  induction text with
  | nil =>
    rw [List.nil_append, lines_of_notMem h]
    rfl
  | cons c text ih => rw [List.cons_append, length_lines_cons, length_lines_cons, ih]

/-- The first line of a text is joined to what is in front of the text. -/
theorem exists_first_line (stack : JString) :
    ∃ first others, lines stack = first :: others ∧
      ∀ text, ∃ joined, lines (text ++ stack) = joined ++ others ∧
        joined.length = (lines text).length ∧ (first = [] → joined = lines text) := by
  by_cases hmem : newline ∈ stack
  · obtain ⟨first, rest, rfl, hfirst⟩ := List.eq_append_cons_of_mem hmem
    refine ⟨first, lines rest, lines_append hfirst rest, fun text => ?_⟩
    refine ⟨lines (text ++ first), ?_, ?_, ?_⟩
    · rw [← List.append_assoc, lines_append_newline]
    · exact length_lines_append text hfirst
    · rintro rfl
      rw [List.append_nil]
  · refine ⟨stack, [], lines_of_notMem hmem, fun text => ?_⟩
    refine ⟨lines (text ++ stack), (List.append_nil _).symm, ?_, ?_⟩
    · exact length_lines_append text hmem
    · rintro rfl
      rw [List.append_nil]

theorem frameLines_of_forall {selfTrace trace : StackTrace} (stack : JString)
    (h : ∀ frame ∈ trace, frame ∉ selfTrace) :
    frameLines selfTrace stack trace = trace.flatMap frameLine := by
  induction trace with
  | nil => rfl
  | cons frame trace ih =>
    obtain ⟨hframe, h⟩ := List.forall_mem_cons.mp h
    have hstep : frameLines selfTrace stack (frame :: trace) =
        frameLine frame ++ frameLines selfTrace stack trace := if_neg hframe
    rw [hstep, ih h, List.flatMap_cons]

/-- The text of script goes in front of the first frame of the caller. -/
theorem frameLines_of_mem {selfTrace trace : StackTrace} (stack : JString)
    (h : ∃ frame ∈ trace, frame ∈ selfTrace) :
    frameLines selfTrace stack trace =
      (trace.takeWhile (· ∉ selfTrace)).flatMap frameLine ++ stack ++
        (trace.dropWhile (· ∉ selfTrace)).flatMap frameLine := by
  induction trace with
  | nil => exact absurd h (by simp)
  | cons frame trace ih =>
    by_cases hframe : frame ∈ selfTrace
    · have hstep : frameLines selfTrace stack (frame :: trace) =
          stack ++ (frame :: trace).flatMap frameLine := if_pos hframe
      rw [hstep, List.takeWhile_cons_of_neg (by simpa), List.dropWhile_cons_of_neg (by simpa)]
      rfl
    · have hstep : frameLines selfTrace stack (frame :: trace) =
          frameLine frame ++ frameLines selfTrace stack trace := if_neg hframe
      have hrest : ∃ g ∈ trace, g ∈ selfTrace := by simpa [hframe] using h
      rw [hstep, ih hrest, List.takeWhile_cons_of_pos (by simpa),
        List.dropWhile_cons_of_pos (by simpa), List.flatMap_cons]
      simp only [List.append_assoc]

/-! ### Frames that are read back -/

/-- A text without line terminators is one line. -/
theorem newline_notMem {text : JString} (h : ∀ c ∈ text, isLineTerminator c = false) :
    newline ∉ text := fun hmem => absurd (h newline hmem) (by decide)

/-- What is read has no newline in its texts. -/
theorem element_line {s : JString} {element : StackTraceElement}
    (h : toStackTraceElement s = .ok (some element)) :
    newline ∉ element.methodName ∧ ∃ file, element.fileName = some file ∧ newline ∉ file := by
  obtain ⟨file, digits, hpattern, hfile, -⟩ := groups_of_element h
  obtain ⟨hnames, hline, -⟩ := matchPattern_texts hpattern
  exact ⟨newline_notMem hnames, file, hfile, newline_notMem hline⟩

theorem element_of_parsed {line : JString} {element : StackTraceElement}
    (h : parsed line = some element) : toStackTraceElement line = .ok (some element) := by
  unfold parsed at h
  cases hline : toStackTraceElement line with
  | ok element' =>
    rw [hline] at h
    exact congrArg Except.ok h
  | error e =>
    rw [hline] at h
    cases h

theorem newline_notMem_decimal (n : ℤ) : newline ∉ decimal n := by
  have hdigits : newline ∉ decimal n.natAbs :=
    notMem_digits (decimal_digits (Int.natCast_nonneg _)).2 (by decide)
  by_cases hn : 0 ≤ n
  · exact notMem_digits (decimal_digits hn).2 (by decide)
  · have hneg : decimal n = 0x2D#16 :: decimal n.natAbs := by
      unfold decimal
      rw [if_pos (by omega), if_neg (by omega), if_neg (by omega), if_neg (by omega)]
      rfl
    rw [hneg, List.mem_cons]
    rintro (heq | hmem)
    · exact absurd heq (by decide)
    · exact hdigits hmem

/-- The line of a frame whose texts are lines is a line. -/
theorem newline_notMem_frameText {frame : StackTraceElement}
    (hnames : newline ∉ qualified frame) {file : JString} (hfile : frame.fileName = some file)
    (hline : newline ∉ file) : newline ∉ frameText frame := by
  have hstart : newline ∉ jstr "    at [" := by decide +kernel
  have hnumber := newline_notMem_decimal frame.lineNumber
  unfold frameText
  rw [hfile]
  simp only [formatted, Option.getD_some, List.mem_append, List.mem_cons, not_or]
  exact ⟨hstart, hnames, by decide, by decide, by decide, hline, by decide, hnumber, by decide,
    List.not_mem_nil⟩

/-! ### The merged text -/

theorem plain_newline {frame : StackTraceElement} (h : Plain frame) :
    newline ∉ frameText frame := by
  obtain ⟨file, hfile, -, hline⟩ := h.file
  exact newline_notMem_frameText (newline_notMem h.names) hfile (newline_notMem hline)

theorem takeWhile_of_forall {selfTrace trace : StackTrace}
    (h : ∀ frame ∈ trace, frame ∉ selfTrace) :
    trace.takeWhile (· ∉ selfTrace) = trace ∧ trace.dropWhile (· ∉ selfTrace) = [] := by
  rw [List.takeWhile_eq_self_iff, List.dropWhile_eq_nil_iff]
  exact ⟨by simpa using h, by simpa using h⟩

theorem tail_of_forall {selfTrace trace : StackTrace} {message : JString} (stack : JString)
    (hmessage : newline ∉ message) (h : ∀ frame ∈ trace, frame ∉ selfTrace)
    (hline : ∀ frame ∈ trace, newline ∉ frameText frame) :
    (lines (message ++ frameLines selfTrace stack trace)).tail = trace.map frameText := by
  rw [frameLines_of_forall stack h, lines_frames message hline, lines_of_notMem hmessage]
  rfl

/-- The first line of the stack of script is joined to the line in front of it. -/
theorem tail_of_mem {selfTrace trace : StackTrace} {message : JString} (stack : JString)
    (hmessage : newline ∉ message) (h : ∃ frame ∈ trace, frame ∈ selfTrace)
    (hline : ∀ frame ∈ trace, newline ∉ frameText frame) :
    ∃ first others joined, lines stack = first :: others ∧
      (lines (message ++ frameLines selfTrace stack trace)).tail =
        joined ++ others ++ (trace.dropWhile (· ∉ selfTrace)).map frameText ∧
      joined.length = (trace.takeWhile (· ∉ selfTrace)).length ∧
      (first = [] → joined = (trace.takeWhile (· ∉ selfTrace)).map frameText) := by
  obtain ⟨first, others, hfirst, happend⟩ := exists_first_line stack
  set before := trace.takeWhile (· ∉ selfTrace)
  set after := trace.dropWhile (· ∉ selfTrace)
  have hbefore : ∀ frame ∈ before, newline ∉ frameText frame :=
    fun frame hmem => hline frame ((List.takeWhile_sublist _).subset hmem)
  have hafter : ∀ frame ∈ after, newline ∉ frameText frame :=
    fun frame hmem => hline frame ((List.dropWhile_sublist _).subset hmem)
  have hfront : lines (message ++ before.flatMap frameLine) = message :: before.map frameText := by
    rw [lines_frames message hbefore, lines_of_notMem hmessage]
    rfl
  obtain ⟨joined, hjoined, hlength, hempty⟩ := happend (message ++ before.flatMap frameLine)
  rw [hfront] at hlength hempty
  have hlines : lines (message ++ frameLines selfTrace stack trace) =
      joined ++ others ++ after.map frameText := by
    rw [frameLines_of_mem stack h, ← hjoined, ← lines_frames _ hafter]
    simp only [List.append_assoc]
    rfl
  cases joined with
  | nil => cases hlength
  | cons line joined =>
    refine ⟨first, others, joined, hfirst, ?_, ?_, ?_⟩
    · rw [hlines]
      rfl
    · simpa using hlength
    · exact fun h => (List.cons.inj (hempty h)).2

theorem append_inj_of_le {α : Type} {as bs cs ds js : List α} (h : as ++ js ++ bs = cs ++ js ++ ds)
    (hleft : as.length ≤ cs.length) (hright : bs.length ≤ ds.length) : as = cs ∧ bs = ds := by
  have hlength := congrArg List.length h
  simp only [List.length_append] at hlength
  obtain ⟨hfront, hbs⟩ := List.append_inj h (by simp only [List.length_append]; omega)
  exact ⟨(List.append_inj hfront (by omega)).1, hbs⟩

/-- Frames are given back, one for each line, exactly where they are plain. -/
theorem filterMap_frames_iff (frames : StackTrace) :
    (frames.map frameText).filterMap parsed = frames.map named ↔ ∀ frame ∈ frames, Plain frame := by
  induction frames with
  | nil => simp
  | cons frame frames ih =>
    rw [List.map_cons, List.map_cons, List.forall_mem_cons, ← frame_decodes_iff, ← ih]
    cases hparsed : parsed (frameText frame) with
    | none =>
      rw [List.filterMap_cons_none hparsed]
      refine iff_of_false (fun h => ?_) fun h => ?_
      · have hle := List.length_filterMap_le parsed (frames.map frameText)
        rw [h, List.length_cons, List.length_map, List.length_map] at hle
        omega
      · rw [parsed_of_ok h.1] at hparsed
        cases hparsed
    | some element =>
      rw [List.filterMap_cons_some hparsed, List.cons.injEq]
      refine and_congr_left fun _ => ⟨?_, ?_⟩
      · rintro rfl
        exact element_of_parsed hparsed
      · intro h
        exact Option.some.inj (hparsed.symm.trans (parsed_of_ok h))

theorem lines_nil : lines [] = [[]] := List.splitOn_nil newline

theorem lines_newline (text : JString) : lines (newline :: text) = [] :: lines text :=
  lines_append List.not_mem_nil text

theorem lines_of_ne {c : BitVec 16} (h : c ≠ newline) (text : JString) :
    ∃ first others, lines (c :: text) = (c :: first) :: others := by
  have hcons := List.splitOn_cons_eq_if_modifyHead (a := newline) c text
  obtain ⟨first, others, hfirst⟩ := List.exists_cons_of_ne_nil (List.splitOn_ne_nil newline text)
  rw [if_neg (by simpa), hfirst, List.modifyHead_cons] at hcons
  exact ⟨first, others, hcons⟩

theorem forall_newline_of_lines {stack : JString} (h : ∀ line ∈ lines stack, line = []) :
    ∀ c ∈ stack, c = newline := by
  induction stack with
  | nil => exact fun c hc => (nomatch hc)
  | cons c stack ih =>
    by_cases hc : c = newline
    · rw [hc, lines_newline] at h
      exact List.forall_mem_cons.mpr ⟨hc, ih (List.forall_mem_cons.mp h).2⟩
    · obtain ⟨first, others, hcons⟩ := lines_of_ne hc stack
      rw [hcons] at h
      exact absurd (h (c :: first) List.mem_cons_self) (List.cons_ne_nil _ _)

theorem lines_of_forall_newline {stack : JString} (h : ∀ c ∈ stack, c = newline) :
    ∀ line ∈ lines stack, line = [] := by
  induction stack with
  | nil => simp [lines_nil]
  | cons c stack ih =>
    obtain ⟨hc, hrest⟩ := List.forall_mem_cons.mp h
    rw [hc, lines_newline]
    exact List.forall_mem_cons.mpr ⟨rfl, ih hrest⟩

/-- The first line is empty where the text is, or begins with a newline. -/
theorem first_line_nil_iff {stack first : JString} {others : List JString}
    (h : lines stack = first :: others) :
    first = [] ↔ stack = [] ∨ stack.head? = some newline := by
  cases stack with
  | nil =>
    rw [lines_nil] at h
    exact iff_of_true (List.cons.inj h).1.symm (Or.inl rfl)
  | cons c stack =>
    by_cases hc : c = newline
    · rw [hc, lines_newline] at h
      exact iff_of_true (List.cons.inj h).1.symm (Or.inr (congrArg some hc))
    · obtain ⟨line, rest, hcons⟩ := lines_of_ne hc stack
      rw [hcons] at h
      rw [← (List.cons.inj h).1]
      simp [hc]

theorem parsed_nil : parsed [] = none := by rfl

/-- A line of a well-formed stack that is no frame is empty. -/
theorem eq_nil_of_parsed {stack line : JString} (hstack : WellFormed stack)
    (hmem : line ∈ lines stack) (h : parsed line = none) : line = [] := by
  obtain hnil | ⟨element, helement⟩ := hstack line hmem
  · exact hnil
  · rw [parsed_of_ok helement] at h
    cases h

/-- Nothing but empty lines: there are no frames of script. -/
theorem forall_newline_iff {stack : JString} (hstack : WellFormed stack) :
    (∀ c ∈ stack, c = newline) ↔ (lines stack).filterMap parsed = [] := by
  rw [List.filterMap_eq_nil_iff]
  constructor
  · intro h line hline
    rw [lines_of_forall_newline h line hline]
    exact parsed_nil
  · intro h
    exact forall_newline_of_lines fun line hline => eq_nil_of_parsed hstack hline (h line hline)

/-- What is given back has no newlines, so each frame of Java is on one line. -/
theorem newline_notMem_of_recovered {ls : List JString} {trace front behind : StackTrace}
    (h : front ++ behind = ls.filterMap parsed) (htrace : ∀ frame ∈ trace, named frame ∈ front ++ behind) :
    ∀ frame ∈ trace, newline ∉ frameText frame := by
  intro frame hframe
  have hmem := htrace frame hframe
  rw [h] at hmem
  obtain ⟨line, -, hparsed⟩ := List.mem_filterMap.mp hmem
  obtain ⟨hnames, file, hfile, hline⟩ := element_line (element_of_parsed hparsed)
  exact newline_notMem_frameText hnames hfile hline

/-- The two parts of a stack, in what is given back. -/
theorem mem_expected {trace js : StackTrace} {selfTrace : StackTrace} {frame : StackTraceElement}
    (h : frame ∈ trace) :
    named frame ∈ (trace.takeWhile (· ∉ selfTrace)).map named ++ js ++
      (trace.dropWhile (· ∉ selfTrace)).map named := by
  rw [← List.takeWhile_append_dropWhile (p := fun g => decide (g ∉ selfTrace)) (l := trace)] at h
  obtain h | h := List.mem_append.mp h
  · exact List.mem_append_left _ (List.mem_append_left _ (List.mem_map_of_mem h))
  · exact List.mem_append_right _ (List.mem_map_of_mem h)

theorem forall_plain_of_parts {trace selfTrace : StackTrace}
    (hbefore : ∀ frame ∈ trace.takeWhile (· ∉ selfTrace), Plain frame)
    (hafter : ∀ frame ∈ trace.dropWhile (· ∉ selfTrace), Plain frame) :
    ∀ frame ∈ trace, Plain frame := by
  intro frame h
  rw [← List.takeWhile_append_dropWhile (p := fun g => decide (g ∉ selfTrace)) (l := trace)] at h
  exact (List.mem_append.mp h).elim (hbefore frame) (hafter frame)

/-- What is given back where all frames are has no frame of script on the first line. -/
theorem plain_of_recovered {selfTrace trace : StackTrace} {message stack : JString}
    (hmessage : newline ∉ message) (hstack : WellFormed stack)
    (h : Recovered selfTrace trace message stack) :
    (∀ frame ∈ trace, Plain frame) ∧
      ((∀ c ∈ stack, c = newline) ∨
        stack.head? = some newline ∧ ∃ frame ∈ trace, frame ∈ selfTrace) := by
  obtain ⟨text, htext, hdecode⟩ := h
  rw [addJavaStack_append selfTrace trace hmessage] at htext
  obtain rfl := Except.ok.inj htext
  have hread := filterMap_of_jsElements hdecode
  have hline : ∀ frame ∈ trace, newline ∉ frameText frame :=
    newline_notMem_of_recovered hread fun frame => mem_expected
  by_cases hmatch : ∃ frame ∈ trace, frame ∈ selfTrace
  · obtain ⟨first, others, joined, hfirst, htail, hlength, hjoined⟩ :=
      tail_of_mem stack hmessage hmatch hline
    rw [htail, hfirst, List.filterMap_append, List.filterMap_append] at hread
    have hjoinedLe := List.length_filterMap_le parsed joined
    have hafterLe := List.length_filterMap_le parsed
      ((trace.dropWhile (· ∉ selfTrace)).map frameText)
    rw [List.length_map] at hafterLe
    cases hparsed : parsed first with
    | some element =>
      -- one frame of script less than there is
      rw [List.filterMap_cons_some hparsed] at hread
      have hcount := congrArg List.length hread
      simp only [List.length_append, List.length_map, List.length_cons] at hcount
      omega
    | none =>
      rw [List.filterMap_cons_none hparsed] at hread
      obtain rfl := eq_nil_of_parsed hstack (hfirst ▸ List.mem_cons_self) hparsed
      rw [hjoined rfl] at hread
      have hle : ∀ frames : StackTrace,
          ((frames.map frameText).filterMap parsed).length ≤ (frames.map named).length := by
        intro frames
        have := List.length_filterMap_le parsed (frames.map frameText)
        simpa using this
      obtain ⟨hbefore, hafter⟩ := append_inj_of_le hread.symm (hle _) (hle _)
      refine ⟨forall_plain_of_parts ((filterMap_frames_iff _).mp hbefore)
        ((filterMap_frames_iff _).mp hafter), ?_⟩
      obtain hnil | hhead := (first_line_nil_iff hfirst).mp rfl
      · exact Or.inl fun c hc => absurd (hnil ▸ hc) List.not_mem_nil
      · exact Or.inr ⟨hhead, hmatch⟩
  · have hnone : ∀ frame ∈ trace, frame ∉ selfTrace :=
      fun frame hmem hself => hmatch ⟨frame, hmem, hself⟩
    obtain ⟨htake, hdrop⟩ := takeWhile_of_forall hnone
    rw [tail_of_forall stack hmessage hnone hline, htake, hdrop, List.map_nil,
      List.append_nil] at hread
    have hle := List.length_filterMap_le parsed (trace.map frameText)
    rw [← hread, List.length_append, List.length_map, List.length_map] at hle
    have hnil : (lines stack).filterMap parsed = [] := List.eq_nil_of_length_eq_zero (by omega)
    rw [hnil, List.append_nil] at hread
    exact ⟨(filterMap_frames_iff trace).mp hread.symm,
      Or.inl ((forall_newline_iff hstack).mpr hnil)⟩

theorem frames_not_error {frames : StackTrace} (h : ∀ frame ∈ frames, Plain frame) :
    ∀ line ∈ frames.map frameText, ∀ e, toStackTraceElement line ≠ .error e := by
  intro line hline e he
  obtain ⟨frame, hframe, rfl⟩ := List.mem_map.mp hline
  rw [frame_decodes (h frame hframe)] at he
  cases he

theorem wellFormed_not_error {stack : JString} (h : WellFormed stack) :
    ∀ line ∈ lines stack, ∀ e, toStackTraceElement line ≠ .error e := by
  intro line hline e he
  obtain rfl | ⟨element, helement⟩ := h line hline
  · cases he
  · rw [helement] at he
    cases he

theorem recovered_of_plain {selfTrace trace : StackTrace} {message stack : JString}
    (hmessage : newline ∉ message) (hstack : WellFormed stack)
    (hplain : ∀ frame ∈ trace, Plain frame)
    (h : (∀ c ∈ stack, c = newline) ∨
      stack.head? = some newline ∧ ∃ frame ∈ trace, frame ∈ selfTrace) :
    Recovered selfTrace trace message stack := by
  refine ⟨_, addJavaStack_append selfTrace trace hmessage stack, (jsElements_eq_ok_iff _ _).mpr ?_⟩
  have hline : ∀ frame ∈ trace, newline ∉ frameText frame :=
    fun frame hframe => plain_newline (hplain frame hframe)
  by_cases hmatch : ∃ frame ∈ trace, frame ∈ selfTrace
  · obtain ⟨first, others, joined, hfirst, htail, -, hjoined⟩ :=
      tail_of_mem stack hmessage hmatch hline
    have hnil : first = [] := by
      obtain hall | ⟨hhead, -⟩ := h
      · exact lines_of_forall_newline hall first (hfirst ▸ List.mem_cons_self)
      · exact (first_line_nil_iff hfirst).mpr (Or.inr hhead)
    have hbefore : ∀ frame ∈ trace.takeWhile (· ∉ selfTrace), Plain frame :=
      fun frame hmem => hplain frame ((List.takeWhile_sublist _).subset hmem)
    have hafter : ∀ frame ∈ trace.dropWhile (· ∉ selfTrace), Plain frame :=
      fun frame hmem => hplain frame ((List.dropWhile_sublist _).subset hmem)
    rw [htail, hjoined hnil]
    constructor
    · intro line hmem
      obtain hmem | hmem := List.mem_append.mp hmem
      · obtain hmem | hmem := List.mem_append.mp hmem
        · exact frames_not_error hbefore line hmem
        · exact wellFormed_not_error hstack line (hfirst ▸ List.mem_cons_of_mem _ hmem)
      · exact frames_not_error hafter line hmem
    · rw [List.filterMap_append, List.filterMap_append, (filterMap_frames_iff _).mpr hbefore,
        (filterMap_frames_iff _).mpr hafter, hfirst, hnil, List.filterMap_cons_none parsed_nil]
  · have hnone : ∀ frame ∈ trace, frame ∉ selfTrace :=
      fun frame hmem hself => hmatch ⟨frame, hmem, hself⟩
    have hall : ∀ c ∈ stack, c = newline := h.resolve_right fun h => hmatch h.2
    obtain ⟨htake, hdrop⟩ := takeWhile_of_forall hnone
    rw [tail_of_forall stack hmessage hnone hline, htake, hdrop]
    refine ⟨frames_not_error hplain, ?_⟩
    rw [(filterMap_frames_iff trace).mpr hplain, (forall_newline_iff hstack).mp hall]
    simp

theorem line_of_all {text : JString} (h : text.all (fun c => !isLineTerminator c) = true) :
    ∀ c ∈ text, isLineTerminator c = false := by
  intro c hc
  simpa using List.all_eq_true.mp h c hc

end JSEngine.Exceptions
