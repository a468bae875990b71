import JSEngine.Common.Machine
import JSEngine.Debugger.LineTable

/-!
# Breakpoints of the debugger

`js_debugger_check_breakpoint` (quickjs.c:53438-53567) keeps a table with one byte for every
byte of a function's code, computed in one pass over its line table. Two counters say when:
one goes up with every `breakpoints` message (quickjs-debugger.c:399-423), the other is kept
with the function.

A session is a run of attaches, messages and checks of one function. Beside what the code
keeps, it records the lines of the last pass, and whether the breakpoints of the file have
been set since.

Main results:

* `breakpoints_agree_iff`: in every session the table agrees with the lines of the
  breakpoints, is used within its bounds, and is computed only after a change, if and only
  if all checks meet a condition;
* `scans_of_changed`: as long as the counter does not come around, no change of the
  breakpoints is missed.
-/

namespace JSEngine.Debugger.Breakpoints

open JSEngine.Common
open JSEngine.Java (toInt)

/-! ## Synchronisation -/

/-- `JSDebuggerFunctionInfo` (quickjs-debugger.h:11-16). -/
structure JSDebuggerFunctionInfo where
  breakpoints : Option (List UInt8)
  dirty : UInt32
  last_line_num : ℤ

/-- What `js_process_breakpoints` keeps of a file. -/
structure PathData where
  breakpoints : Lines
  dirty : UInt32

/-- What is seen of a session. -/
inductive Seen
  /-- a write without a table -/
  | null
  /-- a write to the table -/
  | write (start size : ℤ)
  /-- a read of the table -/
  | read (pc : ℤ)
  /-- a pass, and whether the breakpoints of the file have been set since the last one -/
  | scan (changed : Bool)
  /-- the table after a check, and the breakpoint lines of the file -/
  | table (breakpoints : Option (List UInt8)) (lines : List ℕ)
  /-- the answer at a pc, unless it is what lies behind the table -/
  | answer (pc : ℤ) (value : Option UInt8) (lines : List ℕ)
  deriving DecidableEq

/-- `memset(breakpoints + start, 1, size)`. -/
def memset (breakpoints : List UInt8) (written : ℤ × ℤ) : List UInt8 :=
  breakpoints.mapIdx fun i x => if written.1 ≤ i ∧ i < written.1 + written.2 then 1 else x

/-- The table is computed when the counters of the debugger and of the file are not that of
    the function (lines 53450-53469). -/
def scans (path_data : Option PathData) (current_dirty : UInt32) (f : JSDebuggerFunctionInfo) :
    Option PathData :=
  if f.dirty = current_dirty then none
  else path_data.filter fun d => d.dirty ≠ f.dirty

/-- The part before `done` (lines 53449-53557), where `js_malloc_rt` finds memory or not. -/
def synchronise (b : JSFunctionBytecode) (path_data : Option PathData) (current_dirty : UInt32)
    (allocated : Bool) (f : JSDebuggerFunctionInfo) : JSDebuggerFunctionInfo × List Seen :=
  match scans path_data current_dirty f with
  | none => ({ f with dirty := current_dirty }, [])
  | some d =>
    if f.breakpoints.isSome || allocated then
      let r := scan d.breakpoints.lines f.last_line_num
        ⟨b.pc2line_buf.getD [], 0, b.line_num⟩ []
      -- the first write clears the whole table
      ({ breakpoints := some (r.2.foldl memset (List.replicate b.byte_code_len 0))
         dirty := current_dirty
         last_line_num := r.1 },
        .write 0 b.byte_code_len :: r.2.map fun written => .write written.1 written.2)
    else ({ f with dirty := current_dirty }, [.null])

/-- The part from `done` on (lines 53559-53567), at an offset in the code. -/
def lookUp (b : JSFunctionBytecode) (offset : ℤ) (f : JSDebuggerFunctionInfo) :
    Option UInt8 × List Seen :=
  match f.breakpoints with
  | none => (some 0, [])
  | some breakpoints =>
    let pc := toInt (offset - 1)
    if pc < 0 ∨ (b.byte_code_len : ℤ) < pc then (some 0, [])
    else (breakpoints[pc.toNat]?, [.read pc])

/-- `js_debugger_check_breakpoint` (lines 53438-53567). -/
def js_debugger_check_breakpoint (b : JSFunctionBytecode) (path_data : Option PathData)
    (current_dirty : UInt32) (allocated : Bool) (offset : ℤ) (f : JSDebuggerFunctionInfo) :
    JSDebuggerFunctionInfo × Option UInt8 × List Seen :=
  let r := synchronise b path_data current_dirty allocated f
  let answer := lookUp b offset r.1
  (r.1, answer.1, r.2 ++ answer.2)

/-! ## Sessions -/

/-- The debugger and a function. Recorded are the `lines` of the last pass and whether the
    breakpoints of the file have `changed` since. -/
structure Session where
  breakpoints_dirty_counter : UInt32
  breakpoints : String → Option PathData
  debugger : JSDebuggerFunctionInfo
  lines : List ℕ
  changed : Bool

inductive Action
  | attach
  /-- a message with the breakpoints of a file -/
  | setBreakpoints (path : String) (lines : Lines)
  /-- a check of the function where `cur_pc` is at an offset -/
  | check (offset : ℤ) (allocated : Bool)

/-- The breakpoint lines of the function's file. -/
def Session.current (s : Session) (b : JSFunctionBytecode) : List ℕ :=
  ((s.breakpoints b.filename).map fun d => d.breakpoints.lines).getD []

/-- A check, and what is recorded of it. -/
def Session.check (s : Session) (b : JSFunctionBytecode) (offset : ℤ) (allocated : Bool) :
    Session × List Seen :=
  let path_data := s.breakpoints b.filename
  let current_dirty := s.breakpoints_dirty_counter
  let r := js_debugger_check_breakpoint b path_data current_dirty allocated offset s.debugger
  let scanned := (scans path_data current_dirty s.debugger).isSome
  ({ s with
      debugger := r.1
      lines := if scanned then s.current b else s.lines
      changed := s.changed && !scanned },
    (if scanned then [.scan s.changed] else []) ++ r.2.2 ++
      [.table r.1.breakpoints (s.current b), .answer (toInt (offset - 1)) r.2.1 (s.current b)])

/-- `js_debugger_attach` makes the breakpoints anew (quickjs-debugger.c:707-737), a message
    sets those of a file (lines 399-423). -/
def Session.step (b : JSFunctionBytecode) (s : Session) : Action → Option (Session × List Seen)
  | .attach => some ({ s with breakpoints := fun _ => none, changed := true }, [])
  | .setBreakpoints path lines =>
    let dirty := s.breakpoints_dirty_counter + 1
    some ({ s with
      breakpoints_dirty_counter := dirty
      breakpoints := Function.update s.breakpoints path (some ⟨lines, dirty⟩)
      changed := s.changed || path = b.filename }, [])
  | .check offset allocated => some (s.check b offset allocated)

/-- The sessions with a function that has not been checked yet. -/
def debugger (b : JSFunctionBytecode) : Machine Session Action Seen where
  init :=
    { breakpoints_dirty_counter := 0
      breakpoints := fun _ => none
      debugger := ⟨none, 0, 0⟩
      lines := []
      changed := false }
  step := Session.step b
/-! ## Agreement -/

/-- The table has a 1 at the pcs of the lines. -/
def Agrees (b : JSFunctionBytecode) (breakpoints : Option (List UInt8)) (lines : List ℕ) : Prop :=
  ∀ pc < b.byte_code_len,
    (∃ table, breakpoints = some table ∧ table[pc]? = some 1) ↔ OnLine b lines pc

/-- The table is used within its bounds, computed only after a change, and agrees with the
    lines of the breakpoints; and so do the answers. -/
def Seen.Faithful (b : JSFunctionBytecode) : Seen → Prop
  | .null => False
  | .write start size => 0 ≤ start ∧ 0 ≤ size ∧ start + size ≤ b.byte_code_len
  | .read pc => 0 ≤ pc ∧ pc < b.byte_code_len
  | .scan changed => changed = true
  | .table breakpoints lines => Agrees b breakpoints lines
  | .answer pc value lines =>
    0 ≤ pc → pc < b.byte_code_len → (value ≠ some 0 ↔ OnLine b lines pc.toNat)

/-- With a pass: it is made after a change, finds memory, reaches all pcs on breakpoint lines,
    and the pc is not that behind the code. Without one: the lines of the breakpoints in the
    function are those of the last pass, and the pc is not that behind the table. -/
def Prepared (b : JSFunctionBytecode) (s : Session) (offset : ℤ) (allocated : Bool) :
    Option PathData → Prop
  | some d =>
    s.changed = true ∧ (s.debugger.breakpoints.isSome || allocated) = true ∧
      (∀ pc < b.byte_code_len, OnLine b d.breakpoints.lines pc →
        Reached b s.debugger.last_line_num pc) ∧
      toInt (offset - 1) ≠ b.byte_code_len
  | none =>
    (∀ pc < b.byte_code_len, OnLine b s.lines pc ↔ OnLine b (s.current b) pc) ∧
      (s.debugger.breakpoints.isSome = true → toInt (offset - 1) ≠ b.byte_code_len)

instance (b : JSFunctionBytecode) (s : Session) (offset : ℤ) (allocated : Bool) :
    ∀ d, Decidable (Prepared b s offset allocated d)
  | some _ => inferInstanceAs (Decidable (_ ∧ _ ∧ _ ∧ _))
  | none => inferInstanceAs (Decidable (_ ∧ (_ → _)))

/-- Every check is prepared. -/
def Careful (b : JSFunctionBytecode) (s : Session) : Action → Prop
  | .attach | .setBreakpoints _ _ => True
  | .check offset allocated => Prepared b s offset allocated
    (scans (s.breakpoints b.filename) s.breakpoints_dirty_counter s.debugger)

instance (b : JSFunctionBytecode) (s : Session) : ∀ a, Decidable (Careful b s a)
  | .attach | .setBreakpoints _ _ => isTrue trivial
  | .check offset allocated => inferInstanceAs (Decidable (Prepared b s offset allocated _))

/-! ## The table -/

theorem getElem?_memset (table : List UInt8) (w : ℤ × ℤ) (x : ℕ) :
    (memset table w)[x]? = table[x]?.map fun v => if Covered [w] x then 1 else v := by
  simp only [memset, List.getElem?_mapIdx, Covered, List.mem_singleton, exists_eq_left]

theorem getElem?_foldl_memset (table : List UInt8) (written : List (ℤ × ℤ)) (x : ℕ) :
    (written.foldl memset table)[x]? =
      table[x]?.map fun v => if Covered written x then 1 else v := by
  induction written generalizing table with
  | nil =>
    simp only [List.foldl_nil, if_neg (not_covered_nil x), Option.map_id']
  | cons w written ih =>
    rw [List.foldl_cons, ih, getElem?_memset, Option.map_map]
    congr 1
    funext v
    have happ : Covered (w :: written) x ↔ Covered [w] x ∨ Covered written x :=
      @covered_append [w] written x
    simp only [Function.comp_apply, happ]
    split_ifs with hwritten hw hor hor
    all_goals tauto

/-- The table of a pass. -/
theorem getElem?_cleared {b : JSFunctionBytecode} (written : List (ℤ × ℤ)) {x : ℕ}
    (hx : x < b.byte_code_len) :
    (written.foldl memset (List.replicate b.byte_code_len 0))[x]? =
      some (if Covered written x then 1 else 0) := by
  rw [getElem?_foldl_memset, List.getElem?_replicate, if_pos hx, Option.map_some]

/-! ## Checks -/

/-- Every byte of the table is 0 or 1. -/
def Bytes (b : JSFunctionBytecode) (breakpoints : Option (List UInt8)) : Prop :=
  ∀ table, breakpoints = some table →
    ∀ x < b.byte_code_len, table[x]? = some 0 ∨ table[x]? = some 1

theorem Agrees.congr {b : JSFunctionBytecode} {breakpoints : Option (List UInt8)}
    {lines lines' : List ℕ} (h : Agrees b breakpoints lines) :
    Agrees b breakpoints lines' ↔
      ∀ pc < b.byte_code_len, OnLine b lines pc ↔ OnLine b lines' pc :=
  forall₂_congr fun pc hpc => by rw [h pc hpc]

section Check

variable {b : JSFunctionBytecode} {path_data : Option PathData} {d : PathData}
  {current_dirty : UInt32} {f : JSDebuggerFunctionInfo}

/-- The table is read behind the code or not at all out of bounds. -/
theorem lookUp_reads (offset : ℤ) :
    (∀ e ∈ (lookUp b offset f).2, e.Faithful b) ↔
      (f.breakpoints.isSome = true → toInt (offset - 1) ≠ b.byte_code_len) := by
  unfold lookUp
  cases f.breakpoints with
  | none => exact iff_of_true (List.forall_mem_nil _) nofun
  | some table =>
    dsimp only
    split_ifs with hout
    · refine iff_of_true (List.forall_mem_nil _) fun _ heq => ?_
      omega
    · rw [List.forall_mem_singleton]
      show 0 ≤ toInt (offset - 1) ∧ toInt (offset - 1) < b.byte_code_len ↔
        (true = true → toInt (offset - 1) ≠ b.byte_code_len)
      constructor
      · rintro ⟨-, hlt⟩ -
        exact hlt.ne
      · intro hne
        have hne := hne rfl
        omega

/-- The answer is that of the table. -/
theorem lookUp_answer {lines : List ℕ} (hbytes : Bytes b f.breakpoints)
    (hagrees : Agrees b f.breakpoints lines) (offset : ℤ) :
    (Seen.answer (toInt (offset - 1)) (lookUp b offset f).1 lines).Faithful b := by
  intro hle hlt
  obtain ⟨pc, hpc⟩ := Int.eq_ofNat_of_zero_le hle
  have hpclt : pc < b.byte_code_len := by omega
  rw [lookUp]
  cases hbreakpoints : f.breakpoints with
  | none =>
    refine iff_of_false (fun hne => hne rfl) fun honline => ?_
    rw [hpc, Int.toNat_natCast] at honline
    obtain ⟨table, htable, -⟩ := (hagrees pc hpclt).mpr honline
    rw [hbreakpoints] at htable
    cases htable
  | some table =>
    have hin : ¬(toInt (offset - 1) < 0 ∨ (b.byte_code_len : ℤ) < toInt (offset - 1)) := by omega
    dsimp only
    rw [if_neg hin, hpc, Int.toNat_natCast, ← hagrees pc hpclt, hbreakpoints]
    obtain hbyte | hbyte := hbytes table hbreakpoints pc hpclt
    · refine iff_of_false (fun hne => hne hbyte) ?_
      rintro ⟨table', htable, hone⟩
      obtain rfl := Option.some.inj htable
      rw [hbyte] at hone
      exact absurd (Option.some.inj hone) (by decide)
    · refine iff_of_true ?_ ⟨table, rfl, hbyte⟩
      show table[pc]? ≠ some 0
      rw [hbyte]
      exact fun heq => absurd (Option.some.inj heq) (by decide)

theorem scans_eq_some (h : scans path_data current_dirty f = some d) : path_data = some d := by
  unfold scans at h
  split_ifs at h
  exact (Option.filter_eq_some_iff.mp h).1

theorem synchronise_none (allocated : Bool) (h : scans path_data current_dirty f = none) :
    synchronise b path_data current_dirty allocated f =
      ({ f with dirty := current_dirty }, []) := by
  rw [synchronise, h]

/-- A pass sets the bytes of the pcs on breakpoint lines that are reached. -/
theorem synchronise_some {allocated : Bool} (h : scans path_data current_dirty f = some d)
    (hallocated : (f.breakpoints.isSome || allocated) = true)
    (hlast : 0 ≤ f.last_line_num ∧ f.last_line_num < 2 ^ 31) :
    ∃ table last' writes, synchronise b path_data current_dirty allocated f =
        (⟨some table, current_dirty, last'⟩, writes) ∧
      (0 ≤ last' ∧ last' < 2 ^ 31) ∧ (∀ e ∈ writes, e.Faithful b) ∧ Bytes b (some table) ∧
      ∀ x < b.byte_code_len,
        (table[x]? = some 1 ↔ OnLine b d.breakpoints.lines x ∧ Reached b f.last_line_num x) := by
  obtain ⟨last', written, hrun, hlast', hin, hcovered⟩ := written_iff b d.breakpoints hlast
  refine ⟨written.foldl memset (List.replicate b.byte_code_len 0), last',
    .write 0 b.byte_code_len :: written.map fun w => .write w.1 w.2, ?_, hlast', ?_, ?_,
    fun x hx => ?_⟩
  · rw [synchronise, h]
    dsimp only
    rw [if_pos hallocated, hrun]
  · rw [List.forall_mem_cons, List.forall_mem_map]
    exact ⟨⟨le_refl 0, Int.natCast_nonneg _, by rw [zero_add]⟩, hin⟩
  · intro table htable x hx
    obtain rfl := Option.some.inj htable
    rw [getElem?_cleared written hx]
    split_ifs
    · exact .inr rfl
    · exact .inl rfl
  · rw [getElem?_cleared written hx, ← hcovered x]
    split_ifs with hmark
    · exact iff_of_true rfl hmark
    · exact iff_of_false (fun heq => absurd (Option.some.inj heq) (by decide)) hmark

end Check

/-- The table agrees with the lines of the last pass. -/
structure Sound (b : JSFunctionBytecode) (s : Session) : Prop where
  agrees : Agrees b s.debugger.breakpoints s.lines
  bytes : Bytes b s.debugger.breakpoints
  last : 0 ≤ s.debugger.last_line_num ∧ s.debugger.last_line_num < 2 ^ 31

theorem sound_init (b : JSFunctionBytecode) : Sound b (debugger b).init := by
  refine ⟨fun pc _ => iff_of_false ?_ ?_, nofun, le_refl 0,
    show (0 : ℤ) < 2 ^ 31 by decide⟩
  · rintro ⟨table, htable, -⟩
    cases htable
  · rintro ⟨line, hline, -⟩
    cases hline

/-- A check shows what is right exactly if it is careful. -/
theorem Sound.check {b : JSFunctionBytecode} {s : Session} (h : Sound b s) (offset : ℤ)
    (allocated : Bool) :
    ((∀ e ∈ (s.check b offset allocated).2, e.Faithful b) ↔
        Careful b s (.check offset allocated)) ∧
      (Careful b s (.check offset allocated) → Sound b (s.check b offset allocated).1) := by
  simp only [Session.check, js_debugger_check_breakpoint, Careful]
  cases hscans : scans (s.breakpoints b.filename) s.breakpoints_dirty_counter s.debugger with
  | none =>
    rw [synchronise_none allocated hscans]
    simp only [Option.isSome_none, Bool.false_eq_true, if_false, List.nil_append,
      Bool.not_false, Bool.and_true]
    refine ⟨?_, fun _ => ⟨h.agrees, h.bytes, h.last⟩⟩
    rw [List.forall_mem_append, List.forall_mem_cons, List.forall_mem_singleton, lookUp_reads,
      Prepared, ← h.agrees.congr]
    constructor
    · exact fun hseen => ⟨hseen.2.1, hseen.1⟩
    · exact fun hc => ⟨hc.2, hc.1, lookUp_answer h.bytes hc.1 offset⟩
  | some d =>
    have hcurrent : s.current b = d.breakpoints.lines := by
      rw [Session.current, scans_eq_some hscans]
      rfl
    simp only [Option.isSome_some, if_true, Bool.not_true, Bool.and_false, hcurrent]
    by_cases hallocated : (s.debugger.breakpoints.isSome || allocated) = true
    · obtain ⟨table, last', writes, hrun, hlast', hwrites, hbytes, htable⟩ :=
        synchronise_some (b := b) hscans hallocated h.last
      rw [hrun]
      have hagrees : Agrees b (some table) d.breakpoints.lines ↔
          ∀ pc < b.byte_code_len, OnLine b d.breakpoints.lines pc →
            Reached b s.debugger.last_line_num pc := by
        refine forall₂_congr fun pc hpc => ?_
        simp only [Option.some.injEq, exists_eq_left', htable pc hpc, and_iff_left_iff_imp]
      refine ⟨?_, fun hc => ⟨hagrees.mpr hc.2.2.1, hbytes, hlast'⟩⟩
      rw [List.forall_mem_append, List.forall_mem_append, List.forall_mem_append,
        List.forall_mem_singleton, List.forall_mem_cons, List.forall_mem_singleton, lookUp_reads,
        and_iff_right hwrites]
      constructor
      · rintro ⟨⟨hchanged, hread⟩, htable', -⟩
        exact ⟨hchanged, hallocated, hagrees.mp htable', hread rfl⟩
      · rintro ⟨hchanged, -, hreached, hread⟩
        have htable' := hagrees.mpr hreached
        exact ⟨⟨hchanged, fun _ => hread⟩, htable', lookUp_answer hbytes htable' offset⟩
    · refine ⟨iff_of_false (fun hseen => ?_) fun hc => hallocated hc.2.1,
        fun hc => absurd hc.2.1 hallocated⟩
      refine hseen .null ?_
      rw [synchronise, hscans]
      dsimp only
      rw [if_neg hallocated]
      simp only [List.mem_append, List.mem_singleton, true_or, or_true]

/-- A step shows what is right exactly if it is careful. -/
theorem Sound.step {b : JSFunctionBytecode} {s s' : Session} {a : Action} {o : List Seen}
    (h : Sound b s) (hs : (debugger b).step s a = some (s', o)) :
    ((∀ e ∈ o, e.Faithful b) ↔ Careful b s a) ∧ (Careful b s a → Sound b s') := by
  cases a with
  | attach =>
    obtain ⟨rfl, rfl⟩ := Prod.mk.inj (Option.some.inj hs)
    exact ⟨iff_of_true (List.forall_mem_nil _) trivial, fun _ => ⟨h.agrees, h.bytes, h.last⟩⟩
  | setBreakpoints path lines =>
    obtain ⟨rfl, rfl⟩ := Prod.mk.inj (Option.some.inj hs)
    exact ⟨iff_of_true (List.forall_mem_nil _) trivial, fun _ => ⟨h.agrees, h.bytes, h.last⟩⟩
  | check offset allocated =>
    obtain ⟨rfl, rfl⟩ := Prod.mk.inj (Option.some.inj hs)
    exact h.check offset allocated

/-! ## Sessions -/

/-- **Breakpoints agree with the line table** if and only if all checks are careful. -/
theorem breakpoints_agree_iff (b : JSFunctionBytecode) (as : List Action)
    (r : Session × List Seen) (hr : (debugger b).run (debugger b).init as = some r) :
    (∀ e ∈ r.2, e.Faithful b) ↔ (debugger b).Meets (Careful b) (debugger b).init as := by
  refine (debugger b).run_accepts_iff (I := fun s h => Sound b s ∧ ∀ e ∈ h, e.Faithful b)
    (A := fun h => ∀ e ∈ h, e.Faithful b) (fun h o hA e he => hA e (List.mem_append_left _ he))
    (fun s h hI => hI.2) ?_ as _ [] r ⟨sound_init b, List.forall_mem_nil _⟩ hr
  intro s h a s' o ⟨hsound, hh⟩ hs
  obtain ⟨hiff, hnext⟩ := hsound.step hs
  rw [List.forall_mem_append, and_iff_right hh]
  exact ⟨hiff, fun hc => ⟨hnext hc, hiff.mpr hc⟩⟩

/-- Code with two lines of four bytes each. -/
def twoLines : JSFunctionBytecode where
  filename := "t.js"
  byte_code_len := 8
  line_num := 1
  pc2line_buf := some [23]
  steps := [(4, 2)]
  pos := by decide
  len_lt := by decide
  line_lt := by decide
  decodes := @Decodes.cons 8 [23] [] 0 1 2 4 1 [] rfl (by decide) rfl (by decide) (.nil 4 2)

/-- A breakpoint in one line. -/
def inLine (line : ℕ) (h : line < 2 ^ 32) : Lines where
  lines := [line]
  sorted := List.pairwise_singleton _ _
  lt := by rwa [List.forall_mem_singleton]

/-- A breakpoint in the first line, and one in another file. -/
theorem breakpoints_agree_iff_two :
    ∃ r, (debugger twoLines).run (debugger twoLines).init
        [.setBreakpoints "t.js" (inLine 1 (by decide)), .check 1 true, .check 5 true,
          .setBreakpoints "u.js" (inLine 2 (by decide)), .check 3 true] = some r ∧
      ∀ e ∈ r.2, e.Faithful twoLines := by
  obtain ⟨r, hr⟩ := Option.isSome_iff_exists.mp (show ((debugger twoLines).run
    (debugger twoLines).init [.setBreakpoints "t.js" (inLine 1 (by decide)), .check 1 true,
      .check 5 true, .setBreakpoints "u.js" (inLine 2 (by decide)), .check 3 true]).isSome by
        decide +kernel)
  exact ⟨r, hr, (breakpoints_agree_iff twoLines _ r hr).mpr (by decide +kernel)⟩

/-- A breakpoint in the last line is not marked. -/
theorem last_line_missed :
    ∃ r, (debugger twoLines).run (debugger twoLines).init
        [.setBreakpoints "t.js" (inLine 2 (by decide)), .check 5 true] = some r ∧
      find_line_num twoLines 4 = 2 ∧ .answer 4 (some 0) [2] ∈ r.2 ∧
      ¬∀ e ∈ r.2, e.Faithful twoLines := by
  have hrun : (((debugger twoLines).run (debugger twoLines).init
      [.setBreakpoints "t.js" (inLine 2 (by decide)), .check 5 true]).map fun r =>
        decide (.answer 4 (some 0) [2] ∈ r.2)) = some true := by decide +kernel
  obtain ⟨r, hr, hseen⟩ := Option.map_eq_some_iff.mp hrun
  have hanswer := of_decide_eq_true hseen
  have hline : find_line_num twoLines 4 = 2 := by decide +kernel
  refine ⟨r, hr, hline, hanswer, fun h => ?_⟩
  have hfaithful : (0 : ℤ) ≤ 4 → (4 : ℤ) < 8 → ((some 0 : Option UInt8) ≠ some 0 ↔
      OnLine twoLines [2] 4) := h _ hanswer
  exact (hfaithful (by decide) (by decide)).mpr ⟨2, List.mem_singleton_self 2, hline.symm⟩ rfl

/-! ## Changes -/

/-- The debugger is not attached again, and the counter does not come around. -/
def Steady (s : Session) : Action → Prop
  | .attach => False
  | .setBreakpoints _ _ => s.breakpoints_dirty_counter.toNat + 1 < 2 ^ 32
  | .check _ _ => True

/-- The numbers tell whether the breakpoints have changed since the last pass. -/
structure Numbered (b : JSFunctionBytecode) (s : Session) : Prop where
  file : ∀ d, s.breakpoints b.filename = some d →
    d.dirty.toNat ≤ s.breakpoints_dirty_counter.toNat
  changed : s.changed = true →
    ∃ d, s.breakpoints b.filename = some d ∧ s.debugger.dirty.toNat < d.dirty.toNat
  lines : s.changed = false → s.current b = s.lines
  function : s.debugger.dirty.toNat ≤ s.breakpoints_dirty_counter.toNat

theorem numbered_init (b : JSFunctionBytecode) : Numbered b (debugger b).init :=
  ⟨nofun, nofun, fun _ => rfl, le_refl 0⟩

/-- A change is found by the next check. -/
theorem Numbered.scans {b : JSFunctionBytecode} {s : Session} (h : Numbered b s)
    (hchanged : s.changed = true) :
    (scans (s.breakpoints b.filename) s.breakpoints_dirty_counter s.debugger).isSome = true := by
  obtain ⟨d, hd, hlt⟩ := h.changed hchanged
  have hle := h.file d hd
  have hcounter : s.debugger.dirty ≠ s.breakpoints_dirty_counter := by
    intro heq
    rw [heq] at hlt
    omega
  have hfile : d.dirty ≠ s.debugger.dirty := by
    intro heq
    rw [heq] at hlt
    exact lt_irrefl _ hlt
  rw [Breakpoints.scans, if_neg hcounter, hd, Option.filter_some, if_pos (decide_eq_true hfile)]
  rfl

theorem toNat_add_one {n : UInt32} (h : n.toNat + 1 < 2 ^ 32) : (n + 1).toNat = n.toNat + 1 := by
  rw [UInt32.toNat_add]
  exact Nat.mod_eq_of_lt h

theorem synchronise_dirty (b : JSFunctionBytecode) (path_data : Option PathData)
    (current_dirty : UInt32) (allocated : Bool) (f : JSDebuggerFunctionInfo) :
    (synchronise b path_data current_dirty allocated f).1.dirty = current_dirty := by
  unfold synchronise
  split
  · rfl
  · split_ifs <;> rfl

/-- A message with the breakpoints of a file. -/
theorem Numbered.setBreakpoints {b : JSFunctionBytecode} {s s' : Session} {o : List Seen}
    {path : String} {lines : Lines} (h : Numbered b s)
    (hsteady : s.breakpoints_dirty_counter.toNat + 1 < 2 ^ 32)
    (hs : (debugger b).step s (.setBreakpoints path lines) = some (s', o)) : Numbered b s' := by
  obtain ⟨rfl, -⟩ := Prod.mk.inj (Option.some.inj hs)
  have hnext := toNat_add_one hsteady
  have hfunction : s.debugger.dirty.toNat < (s.breakpoints_dirty_counter + 1).toNat := by
    have hle := h.function
    omega
  by_cases hpath : b.filename = path
  · subst hpath
    refine ⟨fun d hd => ?_, fun _ => ⟨_, Function.update_self .., hfunction⟩, fun hfalse => ?_,
      hfunction.le⟩
    · simp only [Function.update_self, Option.some.injEq] at hd
      rw [← hd]
    · simp only [decide_true, Bool.or_true, Bool.true_eq_false] at hfalse
  · refine ⟨fun d hd => ?_, fun htrue => ?_, fun hfalse => ?_, hfunction.le⟩
    · simp only [Function.update_of_ne hpath] at hd
      have hle := h.file d hd
      show d.dirty.toNat ≤ (s.breakpoints_dirty_counter + 1).toNat
      omega
    · simp only [decide_eq_false (Ne.symm hpath), Bool.or_false] at htrue
      simp only [Function.update_of_ne hpath]
      exact h.changed htrue
    · simp only [decide_eq_false (Ne.symm hpath), Bool.or_false] at hfalse
      simp only [Session.current, Function.update_of_ne hpath]
      exact h.lines hfalse

/-- A check makes the numbers equal, and leaves no change behind. -/
theorem Numbered.check {b : JSFunctionBytecode} {s : Session} (h : Numbered b s) (offset : ℤ)
    (allocated : Bool) : Numbered b (s.check b offset allocated).1 := by
  have hfunction : (s.check b offset allocated).1.debugger.dirty =
      s.breakpoints_dirty_counter := synchronise_dirty ..
  have hchanged : (s.check b offset allocated).1.changed = false := by
    show (s.changed && !_) = false
    cases hold : s.changed with
    | false => rfl
    | true =>
      rw [h.scans hold]
      rfl
  refine ⟨h.file, fun htrue => ?_, fun _ => ?_, (congrArg UInt32.toNat hfunction).le⟩
  · cases htrue.symm.trans hchanged
  · show s.current b = if _ then s.current b else s.lines
    split_ifs with hscans
    · rfl
    · refine h.lines ?_
      by_contra hold
      exact hscans (h.scans (Bool.not_eq_false _ ▸ hold))

theorem Numbered.step {b : JSFunctionBytecode} {s s' : Session} {a : Action} {o : List Seen}
    (h : Numbered b s) (hsteady : Steady s a) (hs : (debugger b).step s a = some (s', o)) :
    Numbered b s' := by
  cases a with
  | attach => exact hsteady.elim
  | setBreakpoints path lines => exact h.setBreakpoints hsteady hs
  | check offset allocated =>
    obtain ⟨rfl, -⟩ := Prod.mk.inj (Option.some.inj hs)
    exact h.check offset allocated

/-- **No change is missed** in a session that is steady: a change since the last pass makes
    the next check scan, and without one the lines are those of the last pass. -/
theorem scans_of_changed (b : JSFunctionBytecode) (as : List Action) (r : Session × List Seen)
    (hsteady : (debugger b).Meets Steady (debugger b).init as)
    (hr : (debugger b).run (debugger b).init as = some r) :
    (r.1.changed = true → (scans (r.1.breakpoints b.filename) r.1.breakpoints_dirty_counter
        r.1.debugger).isSome = true) ∧
      (r.1.changed = false → r.1.current b = r.1.lines) := by
  have hnumbered : Numbered b r.1 :=
    (debugger b).run_history (I := fun s _ => Numbered b s)
      (fun s _ a s' o hI hP hs => hI.step hP hs) as _ [] r (numbered_init b) hsteady hr
  exact ⟨hnumbered.scans, hnumbered.lines⟩

end JSEngine.Debugger.Breakpoints
