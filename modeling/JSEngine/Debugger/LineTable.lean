import JSEngine.Common.Pieces
import JSEngine.Java.Basic
import Mathlib.Data.List.Basic

/-!
# Line tables of functions

The line table of a function (`pc2line_buf`) tells the line of every byte of its code.
`find_line_num` (quickjs.c:6370-6413) reads it for one pc. `js_debugger_check_breakpoint`
reads it once for all breakpoint lines of a file, in increasing order (lines 53478-53557), and
marks where they are.

* `find_line_num_eq`: the line of a pc, in a well-formed line table;
* `written_iff`: what one pass marks are the pcs on a breakpoint line where the lines climb.
-/

namespace JSEngine.Debugger.Breakpoints

open JSEngine.Common.Pieces
open JSEngine.Java (toInt)

/-! ## The line table -/

/-- `get_leb128` (quickjs.c:6332-6351), from the byte `i` of five on, with the bits so far. -/
def get_leb128 : ℕ → ℕ → ℕ → List UInt8 → Option (ℕ × List UInt8)
  | 0, _, _, _ => none
  | _ + 1, _, _, [] => none
  | n + 1, i, v, a :: buf =>
    let v := (v ||| (a.toNat % 128) <<< (i * 7)) % 2 ^ 32
    if a.toNat < 128 then some (v, buf) else get_leb128 n (i + 1) v buf

/-- `get_sleb128` (lines 6353-6365): the lowest bit is the sign. -/
def get_sleb128 (buf : List UInt8) : Option (ℤ × List UInt8) :=
  (get_leb128 5 0 0 buf).map fun r =>
    (if r.1 % 2 = 0 then (r.1 / 2 : ℤ) else -(r.1 / 2 : ℤ) - 1, r.2)

/-- One entry of the table: how far the pc and the line go (lines 6387-6407 and
    53520-53537). -/
def entry : List UInt8 → Option (ℕ × ℤ × List UInt8)
  | [] => none
  | op :: p =>
    if op = 0 then do
      let (val, p) ← get_leb128 5 0 0 p
      let (v, p) ← get_sleb128 p
      some (val, v, p)
    else
      let op := op.toNat - 1
      some (op / 5, (op % 5 : ℕ) + (-1), p)

/-- The bytes lead from a pc and a line through the steps: no entry is cut off, and no line or
    pc is out of bounds. -/
inductive Decodes (byte_code_len : ℕ) : List UInt8 → ℕ → ℕ → List (ℕ × ℕ) → Prop
  | nil (pc line : ℕ) : Decodes byte_code_len [] pc line []
  | cons {buf rest : List UInt8} {pc line line' val : ℕ} {v : ℤ} {steps : List (ℕ × ℕ)} :
    entry buf = some (val, v, rest) → pc + val ≤ byte_code_len → (line' : ℤ) = line + v →
    line' < 2 ^ 31 → Decodes byte_code_len rest (pc + val) line' steps →
    Decodes byte_code_len buf pc line ((pc + val, line') :: steps)

/-- What a `JSFunctionBytecode` has for the debugger, with a line table that decodes to the
    `steps`. A stripped function has no table. -/
structure JSFunctionBytecode where
  filename : String
  byte_code_len : ℕ
  line_num : ℕ
  pc2line_buf : Option (List UInt8)
  steps : List (ℕ × ℕ)
  pos : 0 < byte_code_len
  len_lt : byte_code_len < 2 ^ 31
  line_lt : line_num < 2 ^ 31
  decodes : Decodes byte_code_len (pc2line_buf.getD []) 0 line_num steps

/-- An `int` as a `uint32_t`. -/
def toUint32 (x : ℤ) : ℕ := (x % 2 ^ 32).toNat

/-- `p`, `pc` and `line_num` of the two scans. -/
structure Cursor where
  p : List UInt8
  pc : ℤ
  line_num : ℤ

/-- The next entry; `none` is `goto fail`. -/
def Cursor.next (c : Cursor) : Option Cursor :=
  (entry c.p).map fun (val, v, p) => ⟨p, toInt (c.pc + val), toInt (c.line_num + v)⟩

/-- The loop of `find_line_num`. -/
def findLine (first : ℤ) (pc_value : ℕ) : ℕ → Cursor → ℤ
  | 0, c => c.line_num
  | n + 1, c =>
    if c.p = [] then c.line_num
    else
      match c.next with
      | none => first
      | some c' => if pc_value < toUint32 c'.pc then c.line_num else findLine first pc_value n c'

/-- The line of a pc (lines 6370-6413). -/
def find_line_num (b : JSFunctionBytecode) (pc_value : ℕ) : ℤ :=
  match b.pc2line_buf with
  | none => -1
  | some p => findLine b.line_num pc_value p.length ⟨p, 0, b.line_num⟩

/-! ## The pass over the breakpoints -/

/-- The lines of a file's breakpoints. -/
structure Lines where
  lines : List ℕ
  sorted : lines.Pairwise (· ≤ ·)
  lt : ∀ line ∈ lines, line < 2 ^ 32

/-- The inner loop: entries as long as the line stays the same (lines 53518-53538). -/
def scanLine (last_line_num : ℤ) : ℕ → Cursor → Option Cursor
  | 0, c => some c
  | n + 1, c =>
    if c.p ≠ [] ∧ c.line_num = last_line_num then c.next.bind (scanLine last_line_num n)
    else some c

/-- The loop over the lines up to the breakpoint (lines 53515-53548), with the start and size
    of what is set to 1; an error is `goto fail`. -/
def scanTo (breakpoint_line : ℕ) :
    ℕ → ℤ → ℤ → Cursor → List (ℤ × ℤ) → Except (List (ℤ × ℤ)) (Cursor × List (ℤ × ℤ))
  | 0, _, _, c, written => .ok (c, written)
  | n + 1, last_line_num, line_pc, c, written =>
    if c.p ≠ [] ∧ toUint32 c.line_num ≤ breakpoint_line then
      match scanLine last_line_num c.p.length c with
      | none => .error written
      | some c' =>
        if c'.line_num ≠ last_line_num then
          scanTo breakpoint_line n c'.line_num c'.pc c'
            (if toUint32 last_line_num = breakpoint_line ∧ last_line_num < c'.line_num then
              written ++ [(line_pc, (c'.pc - line_pc) % 2 ^ 64)] else written)
        else scanTo breakpoint_line n last_line_num line_pc c' written
    else .ok (c, written)

/-- The loop over the breakpoints (lines 53488-53552), with `b->debugger.last_line_num`. -/
def scan : List ℕ → ℤ → Cursor → List (ℤ × ℤ) → ℤ × List (ℤ × ℤ)
  | [], last_line_num, _, written => (last_line_num, written)
  | breakpoint_line :: breakpoints, last_line_num, c, written =>
    if breakpoint_line < toUint32 c.line_num then scan breakpoints last_line_num c written
    else if last_line_num ≠ 0 ∧ toUint32 last_line_num < breakpoint_line then
      (last_line_num, written)
    else
      match scanTo breakpoint_line c.p.length c.line_num c.pc c written with
      | .error written => (last_line_num, written)
      | .ok (c, written) =>
        scan breakpoints (if c.p = [] then c.line_num else last_line_num) c written
/-! ## What a pass reaches -/

/-- The line of a pc is one of the lines. -/
def OnLine (b : JSFunctionBytecode) (lines : List ℕ) (pc : ℕ) : Prop :=
  ∃ line ∈ lines, (line : ℤ) = find_line_num b pc

instance (b : JSFunctionBytecode) (lines : List ℕ) (pc : ℕ) : Decidable (OnLine b lines pc) :=
  inferInstanceAs (Decidable (∃ line ∈ lines, (line : ℤ) = find_line_num b pc))

/-- The lines climb at the pc: none before it is higher, the next one is; and the line is not
    beyond the last one, once that is known. -/
def Reached (b : JSFunctionBytecode) (last_line_num : ℤ) (pc : ℕ) : Prop :=
  climbs b.line_num b.steps pc = true ∧
    (last_line_num = 0 ∨ find_line_num b pc ≤ last_line_num)

instance (b : JSFunctionBytecode) (last_line_num : ℤ) (pc : ℕ) :
    Decidable (Reached b last_line_num pc) :=
  inferInstanceAs (Decidable (_ ∧ (_ ∨ _)))

/-! ## Reading the line table -/

theorem toUint32_ofNat {n : ℕ} (h : n < 2 ^ 32) : toUint32 n = n := by
  unfold toUint32
  omega

theorem toInt_of_lt {x : ℤ} (hle : 0 ≤ x) (hlt : x < 2 ^ 31) : toInt x = x :=
  Int.bmod_eq_of_le (by omega) (by omega)

theorem length_get_leb128 {n i v x : ℕ} {buf rest : List UInt8}
    (h : get_leb128 n i v buf = some (x, rest)) : rest.length < buf.length := by
  induction n generalizing i v buf with
  | zero => cases h
  | succ n ih =>
    cases buf with
    | nil => cases h
    | cons a buf =>
      rw [get_leb128] at h
      split_ifs at h
      · obtain ⟨-, rfl⟩ := Prod.mk.inj (Option.some.inj h)
        exact Nat.lt_succ_self _
      · exact (ih h).trans (Nat.lt_succ_self _)

theorem length_get_sleb128 {v : ℤ} {buf rest : List UInt8}
    (h : get_sleb128 buf = some (v, rest)) : rest.length < buf.length := by
  obtain ⟨⟨x, rest'⟩, hread, heq⟩ := Option.map_eq_some_iff.mp h
  obtain ⟨-, rfl⟩ := Prod.mk.inj heq
  exact length_get_leb128 hread

/-- An entry takes bytes. -/
theorem length_entry {val : ℕ} {v : ℤ} {buf rest : List UInt8}
    (h : entry buf = some (val, v, rest)) : rest.length < buf.length := by
  cases buf with
  | nil => cases h
  | cons op p =>
    rw [entry] at h
    split_ifs at h
    · obtain ⟨⟨val', p'⟩, hval, h⟩ := Option.bind_eq_some_iff.mp h
      obtain ⟨⟨v', p''⟩, hv, h⟩ := Option.bind_eq_some_iff.mp h
      obtain ⟨-, h⟩ := Prod.mk.inj (Option.some.inj h)
      obtain ⟨-, rfl⟩ := Prod.mk.inj h
      have hval := length_get_leb128 hval
      have hv := length_get_sleb128 hv
      rw [List.length_cons]
      omega
    · obtain ⟨-, h⟩ := Prod.mk.inj (Option.some.inj h)
      obtain ⟨-, rfl⟩ := Prod.mk.inj h
      exact Nat.lt_succ_self _

theorem Decodes.ascending {byte_code_len pc line : ℕ} {buf : List UInt8} {steps : List (ℕ × ℕ)}
    (h : Decodes byte_code_len buf pc line steps) : Ascending pc steps := by
  induction h with
  | nil pc line => trivial
  | cons hentry hle hline hlt hrest ih => exact ⟨Nat.le_add_right _ _, ih⟩

/-- A scan is at a pc and line of the table, with the steps to come. -/
structure At (b : JSFunctionBytecode) (c : Cursor) (pc line : ℕ) (steps : List (ℕ × ℕ)) :
    Prop where
  decodes : Decodes b.byte_code_len c.p pc line steps
  pc_eq : c.pc = pc
  line_eq : c.line_num = line
  le : pc ≤ b.byte_code_len
  lt : line < 2 ^ 31

section At

variable {b : JSFunctionBytecode} {c : Cursor} {pc line : ℕ} {steps : List (ℕ × ℕ)}

theorem at_start (b : JSFunctionBytecode) :
    At b ⟨b.pc2line_buf.getD [], 0, b.line_num⟩ 0 b.line_num b.steps :=
  ⟨b.decodes, rfl, rfl, Nat.zero_le _, b.line_lt⟩

theorem At.line_toUint32 (h : At b c pc line steps) : toUint32 c.line_num = line := by
  have hlt := h.lt
  rw [h.line_eq, toUint32_ofNat (by omega)]

theorem At.nil_iff (h : At b c pc line steps) : c.p = [] ↔ steps = [] := by
  obtain ⟨hdecodes, -, -, -, -⟩ := h
  generalize c.p = buf at hdecodes
  cases hdecodes with
  | nil pc line => exact iff_of_true rfl rfl
  | cons hentry hle hline hlt hrest =>
    refine iff_of_false ?_ (List.cons_ne_nil _ _)
    rintro rfl
    cases hentry

/-- The next entry is the next step. -/
theorem At.next {step : ℕ × ℕ} (h : At b c pc line (step :: steps)) :
    ∃ c', c.next = some c' ∧ At b c' step.1 step.2 steps ∧ c'.p.length < c.p.length := by
  obtain ⟨buf, cpc, cline⟩ := c
  obtain ⟨hdecodes, hpc, hline, hle, hlt⟩ := h
  have hlen := b.len_lt
  cases hdecodes with
  | @cons buf rest pc line line' val v steps hentry hle' hline' hlt' hrest =>
    have hpc : cpc = pc := hpc
    have hline : cline = line := hline
    refine ⟨⟨rest, (pc + val : ℕ), line'⟩, ?_, ⟨hrest, rfl, rfl, hle', hlt'⟩, length_entry hentry⟩
    have hpc' : toInt ((pc : ℤ) + val) = (pc + val : ℕ) := by
      rw [toInt_of_lt (by omega) (by omega)]
      omega
    have hline'' : toInt ((line : ℤ) + v) = line' := by
      rw [← hline', toInt_of_lt (by omega) (by omega)]
    simp only [Cursor.next, hentry, Option.map_some, hpc, hline, hpc', hline'']

/-- The line of a pc is found at its place in the table. -/
theorem At.findLine (h : At b c pc line steps) (first : ℤ) (pc_value : ℕ) {n : ℕ}
    (hn : c.p.length ≤ n) : findLine first pc_value n c = valueAt line steps pc_value := by
  induction steps generalizing c pc line n with
  | nil =>
    have hnil := h.nil_iff.mpr rfl
    cases n with
    | zero => exact h.line_eq
    | succ n =>
      rw [Breakpoints.findLine, if_pos hnil]
      exact h.line_eq
  | cons step steps ih =>
    obtain ⟨c', hnext, hat, hlength⟩ := h.next
    have hne : c.p ≠ [] := fun hnil => List.cons_ne_nil _ _ (h.nil_iff.mp hnil)
    have hle := hat.le
    have hlen := b.len_lt
    cases n with
    | zero => omega
    | succ n =>
      have hpc : toUint32 c'.pc = step.1 := by rw [hat.pc_eq, toUint32_ofNat (by omega)]
      rw [Breakpoints.findLine, if_neg hne, hnext]
      dsimp only
      rw [hpc, valueAt]
      split_ifs with hlt
      · exact h.line_eq
      · exact ih hat (by omega)

end At

/-- **The line of a pc** is the value of the table there. -/
theorem find_line_num_eq {b : JSFunctionBytecode} {p : List UInt8} (h : b.pc2line_buf = some p)
    (pc : ℕ) : find_line_num b pc = valueAt b.line_num b.steps pc := by
  have hat := at_start b
  rw [h, Option.getD_some] at hat
  rw [find_line_num, h]
  exact hat.findLine _ _ (le_refl _)

/-! ## One pass -/

/-- What has been set to 1. -/
def Covered (written : List (ℤ × ℤ)) (pc : ℕ) : Prop :=
  ∃ w ∈ written, w.1 ≤ pc ∧ (pc : ℤ) < w.1 + w.2

instance (written : List (ℤ × ℤ)) (pc : ℕ) : Decidable (Covered written pc) :=
  inferInstanceAs (Decidable (∃ w ∈ written, w.1 ≤ pc ∧ (pc : ℤ) < w.1 + w.2))

theorem not_covered_nil (pc : ℕ) : ¬Covered [] pc := fun ⟨_, hw, _⟩ => nomatch hw

theorem covered_append {written written' : List (ℤ × ℤ)} {pc : ℕ} :
    Covered (written ++ written') pc ↔ Covered written pc ∨ Covered written' pc := by
  simp only [Covered, List.mem_append, or_and_right, exists_or]

/-- A write within the table. -/
def InTable (b : JSFunctionBytecode) (w : ℤ × ℤ) : Prop :=
  0 ≤ w.1 ∧ 0 ≤ w.2 ∧ w.1 + w.2 ≤ b.byte_code_len

/-- What the loop up to a breakpoint line has done: it has marked what is found with the line,
    and is at a place after which what is higher can still be found, but not the line. -/
structure Passed (b : JSFunctionBytecode) (breakpoint_line pc line : ℕ) (steps : List (ℕ × ℕ))
    (c' : Cursor) (pc' line' : ℕ) (steps' : List (ℕ × ℕ)) (written : List (ℤ × ℤ)) : Prop where
  at_end : At b c' pc' line' steps'
  covered : ∀ x, Covered written x ↔ Found breakpoint_line line pc steps x
  higher : ∀ l > breakpoint_line, ∀ x, Found l line pc steps x ↔ Found l line' pc' steps' x
  done : ∀ x, ¬Found breakpoint_line line' pc' steps' x
  inTable : ∀ w ∈ written, InTable b w

section Pass

variable {b : JSFunctionBytecode} {c : Cursor} {pc line : ℕ} {steps : List (ℕ × ℕ)}

/-- Nothing is left to do. -/
theorem Passed.stop {breakpoint_line : ℕ} (h : At b c pc line steps)
    (hdone : steps = [] ∨ breakpoint_line < line) :
    Passed b breakpoint_line pc line steps c pc line steps [] := by
  have hnot : ∀ x, ¬Found breakpoint_line line pc steps x := by
    intro x hfound
    obtain rfl | hlt := hdone
    · exact not_found_nil hfound
    · exact absurd hfound.le (not_le.mpr hlt)
  exact ⟨h, fun x => iff_of_false (not_covered_nil x) (hnot x), fun _ _ _ => Iff.rfl, hnot,
    List.forall_mem_nil _⟩

theorem scanLine_stop {n : ℕ} {last_line_num : ℤ} {c : Cursor}
    (h : ¬(c.p ≠ [] ∧ c.line_num = last_line_num)) : scanLine last_line_num n c = some c := by
  cases n with
  | zero => rfl
  | succ n => rw [scanLine, if_neg h]

/-- The inner loop passes the entries of one line. -/
theorem At.scanLine (h : At b c pc line steps) {n : ℕ} (hn : c.p.length ≤ n) :
    ∃ c', scanLine line n c = some c' ∧
      At b c' (afterRun line pc steps).1 (afterRun line pc steps).2.1
        (afterRun line pc steps).2.2 ∧ (steps ≠ [] → c'.p.length < c.p.length) := by
  induction steps generalizing c pc n with
  | nil =>
    have hnil := h.nil_iff.mpr rfl
    exact ⟨c, scanLine_stop fun hloop => hloop.1 hnil, h, fun hne => absurd rfl hne⟩
  | cons step steps ih =>
    obtain ⟨p, l⟩ := step
    obtain ⟨c', hnext, hat, hlength⟩ := h.next
    have hne : c.p ≠ [] := fun hnil => List.cons_ne_nil _ _ (h.nil_iff.mp hnil)
    cases n with
    | zero => omega
    | succ n =>
      rw [Breakpoints.scanLine, if_pos ⟨hne, h.line_eq⟩, hnext, Option.bind_some]
      by_cases hl : l = line
      · subst hl
        obtain ⟨c'', hscan, hat', hlength'⟩ := ih hat (n := n) (by omega)
        simp only [afterRun, if_pos]
        refine ⟨c'', hscan, hat', fun _ => ?_⟩
        by_cases hsteps : steps = []
        · have hnil := hat.nil_iff.mpr hsteps
          rw [scanLine_stop fun hloop => hloop.1 hnil] at hscan
          rwa [← Option.some.inj hscan]
        · exact (hlength' hsteps).trans hlength
      · simp only [afterRun, if_neg hl]
        have hother : c'.line_num ≠ line := by
          rw [hat.line_eq]
          exact fun heq => hl (Int.ofNat.inj heq)
        exact ⟨c', scanLine_stop fun hloop => hother hloop.2, hat, fun _ => hlength⟩

theorem scanTo_stop {breakpoint_line n : ℕ} {last_line_num line_pc : ℤ} {c : Cursor}
    {written : List (ℤ × ℤ)} (h : ¬(c.p ≠ [] ∧ toUint32 c.line_num ≤ breakpoint_line)) :
    scanTo breakpoint_line n last_line_num line_pc c written = .ok (c, written) := by
  cases n with
  | zero => rfl
  | succ n => rw [scanTo, if_neg h]

/-- One round of the loop: the run of the line is passed. -/
theorem Passed.round {breakpoint_line pc' line' : ℕ} {steps' : List (ℕ × ℕ)} {c' : Cursor}
    {written : List (ℤ × ℤ)} (h : At b c pc line steps) (hle : line ≤ breakpoint_line)
    (hpassed : Passed b breakpoint_line (afterRun line pc steps).1 (afterRun line pc steps).2.1
      (afterRun line pc steps).2.2 c' pc' line' steps' written)
    (hto : (afterRun line pc steps).1 ≤ b.byte_code_len) :
    Passed b breakpoint_line pc line steps c' pc' line' steps'
      ((if line = breakpoint_line ∧ line < (afterRun line pc steps).2.1 then
        [((pc : ℤ), (((afterRun line pc steps).1 : ℤ) - pc) % 2 ^ 64)] else []) ++ written) := by
  have hascending := h.decodes.ascending
  have hfrom : pc ≤ (afterRun line pc steps).1 := hascending.afterRun.1
  have hlen := b.len_lt
  have hsize : (((afterRun line pc steps).1 : ℤ) - pc) % 2 ^ 64 =
      ((afterRun line pc steps).1 : ℤ) - pc := Int.emod_eq_of_lt (by omega) (by omega)
  rw [hsize]
  refine ⟨hpassed.at_end, fun x => ?_, fun l hl x => ?_, hpassed.done, ?_⟩
  · rw [covered_append, hpassed.covered, found_afterRun hascending, and_iff_right hle]
    refine or_congr_left ?_
    split_ifs with hmark
    · simp only [Covered, List.mem_singleton, exists_eq_left]
      refine ⟨fun hin => ⟨hmark.2, hmark.1, by omega, by omega⟩, fun hin => ?_⟩
      obtain ⟨-, -, hpc, hx⟩ := hin
      omega
    · exact iff_of_false (not_covered_nil x) fun hin => hmark ⟨hin.2.1, hin.1⟩
  · rw [found_afterRun_of_lt hascending (lt_of_le_of_lt hle hl), hpassed.higher l hl]
  · intro w hw
    obtain hw | hw := List.mem_append.mp hw
    · split_ifs at hw with hmark
      · obtain rfl := List.mem_singleton.mp hw
        refine ⟨?_, ?_, ?_⟩
        · exact Int.natCast_nonneg pc
        · show (0 : ℤ) ≤ ((afterRun line pc steps).1 : ℤ) - pc
          omega
        · show (pc : ℤ) + (((afterRun line pc steps).1 : ℤ) - pc) ≤ b.byte_code_len
          omega
      · cases hw
    · exact hpassed.inTable w hw

/-- The loop up to a breakpoint line, by induction on the rounds. -/
theorem At.scanTo (h : At b c pc line steps) (breakpoint_line : ℕ) {n : ℕ}
    (hn : c.p.length ≤ n) (written : List (ℤ × ℤ)) :
    ∃ c' pc' line' steps' written',
      scanTo breakpoint_line n line pc c written = .ok (c', written ++ written') ∧
        Passed b breakpoint_line pc line steps c' pc' line' steps' written' := by
  induction n generalizing c pc line steps written with
  | zero =>
    have hnil : c.p = [] := List.length_eq_zero_iff.mp (Nat.le_zero.mp hn)
    exact ⟨c, pc, line, steps, [], by rw [List.append_nil]; rfl,
      Passed.stop h (.inl (h.nil_iff.mp hnil))⟩
  | succ n ih =>
    by_cases hloop : c.p ≠ [] ∧ toUint32 c.line_num ≤ breakpoint_line
    · obtain ⟨hne, hle⟩ := hloop
      have hsteps : steps ≠ [] := fun hnil => hne (h.nil_iff.mpr hnil)
      obtain ⟨c₁, hscan, hat, hlength⟩ := h.scanLine (le_refl c.p.length)
      have hlength := hlength hsteps
      have hline : line ≤ breakpoint_line := by rwa [h.line_toUint32] at hle
      rw [Breakpoints.scanTo, if_pos ⟨hne, hle⟩, hscan]
      dsimp only
      by_cases hsame : (afterRun line pc steps).2.1 = line
      · have hnil := afterRun_nil hsame
        have hend : c₁.p = [] := hat.nil_iff.mpr hnil
        have hnot : ¬(c₁.line_num ≠ line) := by rw [hat.line_eq, hsame, not_not]
        rw [if_neg hnot, scanTo_stop fun hloop => hloop.1 hend]
        have hstop : Passed b breakpoint_line _ _ _ c₁ _ _ _ [] := Passed.stop hat (.inl hnil)
        have hpassed := Passed.round h hline hstop hat.le
        rw [if_neg fun hmark => hmark.2.ne' hsame, List.nil_append] at hpassed
        exact ⟨c₁, _, _, _, [], by rw [List.append_nil], hpassed⟩
      · have hother : c₁.line_num ≠ line := by
          rw [hat.line_eq]
          exact fun heq => hsame (Int.ofNat.inj heq)
        have hmark : toUint32 line = breakpoint_line ∧ (line : ℤ) < c₁.line_num ↔
            line = breakpoint_line ∧ line < (afterRun line pc steps).2.1 := by
          rw [← h.line_eq, h.line_toUint32, h.line_eq, hat.line_eq, Int.ofNat_lt]
        rw [if_pos hother, hat.line_eq, hat.pc_eq]
        obtain ⟨c', pc', line', steps', written', hrun, hpassed⟩ := ih hat (by omega)
          (if toUint32 line = breakpoint_line ∧ (line : ℤ) < (afterRun line pc steps).2.1 then
            written ++ [((pc : ℤ), (((afterRun line pc steps).1 : ℤ) - pc) % 2 ^ 64)] else written)
        rw [hrun]
        refine ⟨c', pc', line', steps', _, ?_, Passed.round h hline hpassed hat.le⟩
        rw [hat.line_eq] at hmark
        simp only [hmark]
        split_ifs
        · rw [List.append_assoc]
        · rw [List.nil_append]
    · have hdone : steps = [] ∨ breakpoint_line < line := by
        rw [h.line_toUint32] at hloop
        by_cases hnil : c.p = []
        · exact .inl (h.nil_iff.mp hnil)
        · exact .inr (not_le.mp fun hle => hloop ⟨hnil, hle⟩)
      exact ⟨c, pc, line, steps, [], by rw [scanTo_stop hloop, List.append_nil],
        Passed.stop h hdone⟩

/-- A line that is taken into account: it is not beyond the last line, once that is known. -/
def Known (last_line_num : ℤ) (line : ℕ) : Prop := last_line_num = 0 ∨ (line : ℤ) ≤ last_line_num

/-- What is found with the line of the pass or a higher one is marked, or found after it. -/
theorem Passed.exists_found {breakpoint_line pc' line' : ℕ} {steps' : List (ℕ × ℕ)}
    {c' : Cursor} {written : List (ℤ × ℤ)} {breakpoints : List ℕ} {K : ℕ → Prop}
    (h : Passed b breakpoint_line pc line steps c' pc' line' steps' written)
    (hfirst : ∀ l ∈ breakpoints, breakpoint_line ≤ l) (hK : K breakpoint_line) (x : ℕ) :
    (∃ l ∈ breakpoint_line :: breakpoints, K l ∧ Found l line pc steps x) ↔
      Covered written x ∨ ∃ l ∈ breakpoints, K l ∧ Found l line' pc' steps' x := by
  rw [h.covered, List.exists_mem_cons_iff, and_iff_right hK]
  constructor
  · rintro (hfound | ⟨l, hl, hk, hfound⟩)
    · exact .inl hfound
    · by_cases heq : breakpoint_line = l
      · subst heq
        exact .inl hfound
      · have hgt := lt_of_le_of_ne (hfirst l hl) heq
        exact .inr ⟨l, hl, hk, (h.higher l hgt x).mp hfound⟩
  · rintro (hfound | ⟨l, hl, hk, hfound⟩)
    · exact .inl hfound
    · have hne : breakpoint_line ≠ l := by
        rintro rfl
        exact h.done x hfound
      have hgt := lt_of_le_of_ne (hfirst l hl) hne
      exact .inr ⟨l, hl, hk, (h.higher l hgt x).mpr hfound⟩

/-- Once the last line is set, nothing is found any more. -/
theorem At.found_known (h : At b c pc line steps) (last_line_num : ℤ) (l x : ℕ) :
    Known (if c.p = [] then c.line_num else last_line_num) l ∧ Found l line pc steps x ↔
      Known last_line_num l ∧ Found l line pc steps x := by
  split_ifs with hnil
  · obtain rfl := h.nil_iff.mp hnil
    exact iff_of_false (fun hfound => not_found_nil hfound.2) fun hfound => not_found_nil hfound.2
  · rfl

/-- The loop over the breakpoints marks what is found with their lines. -/
theorem At.scan (h : At b c pc line steps) {breakpoints : List ℕ} {last_line_num : ℤ}
    (hsorted : breakpoints.Pairwise (· ≤ ·)) (hlast : 0 ≤ last_line_num ∧ last_line_num < 2 ^ 31)
    (written : List (ℤ × ℤ)) :
    ∃ last' written', scan breakpoints last_line_num c written = (last', written ++ written') ∧
      (0 ≤ last' ∧ last' < 2 ^ 31) ∧ (∀ w ∈ written', InTable b w) ∧
      ∀ x, Covered written' x ↔
        ∃ l ∈ breakpoints, Known last_line_num l ∧ Found l line pc steps x := by
  induction breakpoints generalizing c pc line steps last_line_num written with
  | nil =>
    refine ⟨last_line_num, [], by rw [List.append_nil]; rfl, hlast, List.forall_mem_nil _,
      fun x => iff_of_false (not_covered_nil x) ?_⟩
    rintro ⟨l, hl, -⟩
    cases hl
  | cons breakpoint_line breakpoints ih =>
    obtain ⟨hfirst, hsorted⟩ := List.pairwise_cons.mp hsorted
    have hlastu : (toUint32 last_line_num : ℤ) = last_line_num := by
      unfold toUint32
      omega
    rw [Breakpoints.scan, h.line_toUint32]
    split_ifs with hbefore hbeyond
    · -- the breakpoint is before the current line
      obtain ⟨last', written', hrun, hlast', hin, hcovered⟩ := ih h hsorted hlast written
      refine ⟨last', written', hrun, hlast', hin, fun x => (hcovered x).trans ?_⟩
      rw [List.exists_mem_cons_iff, or_iff_right]
      exact fun hfound => absurd hfound.2.le (not_le.mpr hbefore)
    · -- it is after the end of the function, and so are those to come
      refine ⟨last_line_num, [], by rw [List.append_nil], hlast, List.forall_mem_nil _,
        fun x => iff_of_false (not_covered_nil x) ?_⟩
      rintro ⟨l, hl, hknown, -⟩
      have hle : breakpoint_line ≤ l := by
        obtain rfl | hl := List.mem_cons.mp hl
        · exact le_refl l
        · exact hfirst l hl
      obtain hzero | hknown := hknown
      · exact hbeyond.1 hzero
      · omega
    · have hknown : Known last_line_num breakpoint_line := by
        by_cases hzero : last_line_num = 0
        · exact .inl hzero
        · have hle : ¬toUint32 last_line_num < breakpoint_line := fun hlt => hbeyond ⟨hzero, hlt⟩
          exact .inr (by omega)
      obtain ⟨c', pc', line', steps', marked, hrun, hpassed⟩ :=
        h.scanTo breakpoint_line (le_refl c.p.length) written
      rw [h.line_eq, h.pc_eq, hrun]
      dsimp only
      have hat := hpassed.at_end
      have hlast' : 0 ≤ (if c'.p = [] then c'.line_num else last_line_num) ∧
          (if c'.p = [] then c'.line_num else last_line_num) < 2 ^ 31 := by
        have hline := hat.line_eq
        have hlt := hat.lt
        split_ifs <;> omega
      obtain ⟨last', written', hrun', hlast'', hin, hcovered⟩ :=
        ih hat hsorted hlast' (written ++ marked)
      refine ⟨last', marked ++ written', by rw [hrun', List.append_assoc], hlast'',
        List.forall_mem_append.mpr ⟨hpassed.inTable, hin⟩, fun x => ?_⟩
      rw [covered_append, hcovered, hpassed.exists_found hfirst hknown]
      simp only [hat.found_known]

end Pass

/-- **One pass** marks the pcs on a breakpoint line that are reached. -/
theorem written_iff (b : JSFunctionBytecode) (lines : Lines) {last_line_num : ℤ}
    (hlast : 0 ≤ last_line_num ∧ last_line_num < 2 ^ 31) :
    ∃ last' written, scan lines.lines last_line_num
        ⟨b.pc2line_buf.getD [], 0, b.line_num⟩ [] = (last', written) ∧
      (0 ≤ last' ∧ last' < 2 ^ 31) ∧ (∀ w ∈ written, InTable b w) ∧
      ∀ x, Covered written x ↔ OnLine b lines.lines x ∧ Reached b last_line_num x := by
  obtain ⟨last', written, hrun, hlast', hin, hcovered⟩ :=
    (at_start b).scan lines.sorted hlast []
  refine ⟨last', written, hrun, hlast', hin, fun x => (hcovered x).trans ?_⟩
  cases hbuf : b.pc2line_buf with
  | none =>
    have hsteps : b.steps = [] := (at_start b).nil_iff.mp (by rw [hbuf]; rfl)
    refine iff_of_false ?_ ?_
    · rintro ⟨l, -, -, hfound⟩
      rw [hsteps] at hfound
      exact not_found_nil hfound
    · rintro ⟨⟨l, -, hl⟩, -⟩
      have hl : (l : ℤ) = -1 := by rwa [find_line_num, hbuf] at hl
      omega
  | some p =>
    have hline := find_line_num_eq hbuf x
    constructor
    · rintro ⟨l, hl, hknown, -, hvalue, hclimbs⟩
      rw [hvalue] at hline
      exact ⟨⟨l, hl, hline.symm⟩, hclimbs, hknown.imp_right fun hle => hline ▸ hle⟩
    · rintro ⟨⟨l, hl, heq⟩, hclimbs, hknown⟩
      rw [hline] at heq
      refine ⟨l, hl, hknown.imp_right fun hle => ?_, Nat.zero_le x, ?_, hclimbs⟩
      · rw [hline, ← heq] at hle
        exact hle
      · exact (Int.ofNat.inj heq).symm
end JSEngine.Debugger.Breakpoints
