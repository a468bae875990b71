import JSEngine.Debugger.LineTable

/-!
# Writing line tables

While a function is compiled, `add_pc2line_info` (quickjs.c:30678-30690) notes the places where the
line changes. Jumps that turn out to be short are shrunk afterwards, which moves what follows
(lines 31698-31727), and `compute_pc2line_info` (lines 30692-30728) packs the places into the bytes
that the debugger and the stack traces read.

* `entry_put`: one entry reads back as the two differences it was written from;
* `decodes_compute`: the bytes of a function decode to the places noted for it;
* `compiled_line_num`: every byte of the code is on the line it was emitted for.
-/

namespace JSEngine.Debugger.LineEncoding

open JSEngine.Common.Pieces
open JSEngine.Java (toInt)
open JSEngine.Debugger.Breakpoints

/-! ## Numbers as bytes -/

/-- `dbuf_put_leb128` (lines 6315-6328); a `uint32_t` takes five rounds at most. -/
def putLeb128 : ℕ → ℕ → List UInt8
  | 0, _ => []
  | n + 1, v =>
    let a := v % 128
    let v := v / 128
    if v ≠ 0 then UInt8.ofNat (a ||| 0x80) :: putLeb128 n v else [UInt8.ofNat a]

def dbuf_put_leb128 (v : ℕ) : List UInt8 := putLeb128 5 v

/-- `dbuf_put_sleb128` (lines 6330-6334). -/
def dbuf_put_sleb128 (v1 : ℤ) : List UInt8 :=
  let v := BitVec.ofInt 32 v1
  dbuf_put_leb128 ((2#32 * v) ^^^ -(v >>> 31)).toNat

/-! ## The places -/

structure LineNumberSlot where
  pc : ℕ
  line_num : ℤ
  deriving DecidableEq, Repr

/-- What a `JSFunctionDef` has for the line table. The slots are those in use: there are
    `line_number_count` of them. -/
structure JSFunctionDef where
  js_mode_strip : Bool
  line_num : ℤ
  line_number_slots : Option (List LineNumberSlot)
  line_number_size : ℕ
  line_number_last : ℤ
  line_number_last_pc : ℤ
  deriving DecidableEq, Repr

/-- The slots are allocated (lines 30920-30927). -/
def JSFunctionDef.start (s : JSFunctionDef) : JSFunctionDef :=
  if s.line_number_size ≠ 0 ∧ s.js_mode_strip = false then
    { s with
      line_number_slots := some []
      line_number_last := s.line_num
      line_number_last_pc := 0 }
  else s

/-- `add_pc2line_info` (lines 30678-30690). -/
def add_pc2line_info (s : JSFunctionDef) (pc : ℕ) (line_num : ℤ) : JSFunctionDef :=
  match s.line_number_slots with
  | none => s
  | some slots =>
    if slots.length < s.line_number_size ∧ toUint32 s.line_number_last_pc ≤ pc ∧
        line_num ≠ s.line_number_last then
      { s with
        line_number_slots := some (slots ++ [⟨pc, line_num⟩])
        line_number_last_pc := toInt pc
        line_number_last := line_num }
    else s

/-- `delta` bytes behind the operand at `pos` are taken out (lines 31723-31726). -/
def shrink (s : JSFunctionDef) (pos delta : ℕ) : JSFunctionDef :=
  { s with
    line_number_slots := s.line_number_slots.map fun slots =>
      slots.map fun slot => if pos < slot.pc then { slot with pc := slot.pc - delta } else slot }

/-- One entry of the table (lines 30712-30723), with `PC2LINE_BASE = -1`, `PC2LINE_RANGE = 5`,
    `PC2LINE_OP_FIRST = 1` and `PC2LINE_DIFF_PC_MAX = (255 - 1) / 5`. -/
def putEntry (diff_pc diff_line : ℤ) : List UInt8 :=
  if -1 ≤ diff_line ∧ diff_line < -1 + 5 ∧ diff_pc ≤ (255 - 1) / 5 then
    [UInt8.ofNat ((diff_line - -1) + diff_pc * 5 + 1).toNat]
  else 0 :: (dbuf_put_leb128 (toUint32 diff_pc) ++ dbuf_put_sleb128 diff_line)

/-- The loop of `compute_pc2line_info` (lines 30700-30726). -/
def putSlots (last_pc : ℕ) (last_line_num : ℤ) : List LineNumberSlot → List UInt8
  | [] => []
  | slot :: slots =>
    if slot.line_num < 0 then putSlots last_pc last_line_num slots
    else
      let diff_pc := toInt ((slot.pc : ℤ) - last_pc)
      let diff_line := toInt (slot.line_num - last_line_num)
      if diff_line = 0 ∨ diff_pc < 0 then putSlots last_pc last_line_num slots
      else putEntry diff_pc diff_line ++ putSlots slot.pc slot.line_num slots

/-- `compute_pc2line_info` (lines 30692-30728): `s->pc2line`. -/
def compute_pc2line_info (s : JSFunctionDef) : List UInt8 :=
  if s.js_mode_strip = false then
    match s.line_number_slots with
    | none => []
    | some slots => putSlots 0 s.line_num slots
  else []

/-- `b->debug.pc2line_buf` (lines 32153-32155): there is no buffer for no bytes. -/
def pc2line_buf (table : List UInt8) : Option (List UInt8) :=
  if table = [] then none else some table

/-! ## What is compiled -/

/-- The code of a function: each chunk of bytes comes after a call of `add_pc2line_info` for its
    line, other than the bytes before the first call. -/
abbrev Code := List (ℕ × ℕ)

/-- The calls while the bytes are put out; `size` is `bc_out.size`. -/
def emit (s : JSFunctionDef) (size : ℕ) : Code → JSFunctionDef
  | [] => s
  | (line_num, n) :: code => emit (add_pc2line_info s size line_num) (size + n) code

/-- A jump in a chunk, with the place of its operand there, the operand's new size, and how
    many bytes it loses. -/
structure Jump where
  chunk : ℕ
  place : ℕ
  size : ℕ
  delta : ℕ
  deriving DecidableEq, Repr

/-- The jump is all in its chunk: an opcode and an operand. -/
def Jump.Fits (code : Code) (j : Jump) : Prop :=
  0 < j.place ∧ 0 < j.delta ∧ ∃ c ∈ code[j.chunk]?, j.place + j.size + j.delta ≤ c.2

/-- The code without the bytes the jump loses. -/
def Jump.cut (code : Code) (j : Jump) : Code :=
  code.modify j.chunk fun c => (c.1, c.2 - j.delta)

/-- `jp->pos`. -/
def Jump.pos (code : Code) (j : Jump) : ℕ := total (code.take j.chunk) + j.place

/-- The loop over the jumps that are shrunk (lines 31690-31730). -/
def shrinkAll (s : JSFunctionDef) (code : Code) : List Jump → JSFunctionDef
  | [] => s
  | j :: js => shrinkAll (shrink s (j.pos code) j.delta) (j.cut code) js

/-- The code in the end. -/
def cutAll (code : Code) : List Jump → Code
  | [] => code
  | j :: js => cutAll (j.cut code) js

/-- Every jump is in the code as it is when its turn comes. -/
def AllFit (code : Code) : List Jump → Prop
  | [] => True
  | j :: js => j.Fits code ∧ AllFit (j.cut code) js

/-- `resolve_labels` (lines 30872-31770), as far as line numbers go. The first chunk is what is
    put out before the first call. -/
def resolve_labels (s : JSFunctionDef) (line_num prologue : ℕ) (code : Code)
    (jumps : List Jump) : List UInt8 :=
  compute_pc2line_info
    (shrinkAll (emit s.start prologue code) ((line_num, prologue) :: code) jumps)

/-! ## Reading numbers back -/

theorem lor_shiftLeft {acc k : ℕ} (h : acc < 2 ^ k) (a : ℕ) : acc ||| a <<< k = acc + a * 2 ^ k := by
  rw [Nat.or_comm, ← Nat.shiftLeft_add_eq_or_of_lt h, Nat.shiftLeft_eq, Nat.add_comm]

/-- A byte of a number: seven bits, and whether there are more. -/
theorem lor_128 {a : ℕ} (h : a < 128) : a ||| 0x80 = a + 128 := lor_shiftLeft (k := 7) h 1

theorem get_put_leb128 {n i acc v : ℕ} {rest : List UInt8} (hi : i + n = 4)
    (hacc : acc < 2 ^ (i * 7)) (hv : acc + v * 2 ^ (i * 7) < 2 ^ 32) :
    get_leb128 (n + 1) i acc (putLeb128 (n + 1) v ++ rest) =
      some (acc + v * 2 ^ (i * 7), rest) := by
  induction n generalizing i acc v with
  | zero =>
    obtain rfl : i = 4 := hi
    have hsmall : v < 128 := by omega
    have hdiv : v / 128 = 0 := by omega
    have hmod : v % 128 = v := by omega
    have hbyte : (UInt8.ofNat v).toNat = v := by rw [UInt8.toNat_ofNat']; omega
    simp only [putLeb128, hdiv, ne_eq, not_true_eq_false, if_false, hmod, List.singleton_append,
      get_leb128, hbyte, if_pos hsmall]
    rw [lor_shiftLeft hacc, Nat.mod_eq_of_lt hv]
  | succ n ih =>
    have hsum : v * 2 ^ (i * 7) = v % 128 * 2 ^ (i * 7) + v / 128 * 2 ^ ((i + 1) * 7) := by
      have hpow : 2 ^ ((i + 1) * 7) = 128 * 2 ^ (i * 7) := by rw [Nat.add_mul, pow_add]; ring
      have hdiv := Nat.mod_add_div v 128
      calc v * 2 ^ (i * 7) = (v % 128 + 128 * (v / 128)) * 2 ^ (i * 7) := by rw [hdiv]
        _ = v % 128 * 2 ^ (i * 7) + v / 128 * (128 * 2 ^ (i * 7)) := by ring
        _ = _ := by rw [hpow]
    have hlow : v % 128 < 128 := Nat.mod_lt v (by decide)
    rw [putLeb128]
    split_ifs with hmore
    · have hbyte : (UInt8.ofNat (v % 128 ||| 0x80)).toNat = v % 128 + 128 := by
        rw [lor_128 hlow, UInt8.toNat_ofNat']
        omega
      have hrem : (v % 128 + 128) % 128 = v % 128 := by omega
      have hnext : acc + v % 128 * 2 ^ (i * 7) < 2 ^ ((i + 1) * 7) := by
        have hpow : 2 ^ ((i + 1) * 7) = 128 * 2 ^ (i * 7) := by rw [Nat.add_mul, pow_add]; ring
        rw [hpow]
        nlinarith
      rw [List.cons_append, get_leb128, hbyte, hrem]
      rw [if_neg (by omega), lor_shiftLeft hacc, Nat.mod_eq_of_lt (by omega),
        ih (by omega) hnext (by omega), hsum, Nat.add_assoc]
    · have hbyte : (UInt8.ofNat (v % 128)).toNat = v % 128 := by
        rw [UInt8.toNat_ofNat']
        omega
      have hsmall : v % 128 = v := by omega
      rw [List.singleton_append, get_leb128, hbyte, hsmall, hsmall]
      rw [if_pos (by omega), lor_shiftLeft hacc, Nat.mod_eq_of_lt hv]

/-- A `uint32_t` reads back. -/
theorem get_dbuf_put_leb128 {v : ℕ} (h : v < 2 ^ 32) (rest : List UInt8) :
    get_leb128 5 0 0 (dbuf_put_leb128 v ++ rest) = some (v, rest) := by
  have hget := @get_put_leb128 4 0 0 v rest rfl (by decide) (by omega)
  rwa [Nat.zero_add, Nat.zero_mul, Nat.pow_zero, Nat.mul_one] at hget

/-- The sign goes to the lowest bit. -/
theorem zigzag {v1 : ℤ} (hle : -2 ^ 31 ≤ v1) (hlt : v1 < 2 ^ 31) :
    (((2#32 * BitVec.ofInt 32 v1) ^^^ -(BitVec.ofInt 32 v1 >>> 31)).toNat : ℤ) =
      if 0 ≤ v1 then 2 * v1 else -2 * v1 - 1 := by
  have hv : ((BitVec.ofInt 32 v1).toNat : ℤ) = v1 % 2 ^ 32 := by
    rw [BitVec.toNat_ofInt]
    omega
  generalize BitVec.ofInt 32 v1 = v at hv
  have hshift : (v >>> 31).toNat = v.toNat / 2 ^ 31 := by
    rw [BitVec.toNat_ushiftRight, Nat.shiftRight_eq_div_pow]
  have hdouble : (2#32 * v).toNat = 2 * v.toNat % 2 ^ 32 := BitVec.toNat_mul 2#32 v
  split_ifs with hsign
  · have hzero : v >>> 31 = 0#32 := by
      apply BitVec.eq_of_toNat_eq
      rw [hshift, BitVec.toNat_ofNat]
      omega
    rw [hzero, BitVec.neg_zero, BitVec.xor_zero, hdouble]
    omega
  · have hone : v >>> 31 = 1#32 := by
      apply BitVec.eq_of_toNat_eq
      rw [hshift, BitVec.toNat_ofNat]
      omega
    rw [hone, BitVec.neg_one_eq_allOnes, BitVec.xor_allOnes, BitVec.toNat_not, hdouble]
    omega

/-- An `int32_t` reads back. -/
theorem get_dbuf_put_sleb128 {v : ℤ} (hle : -2 ^ 31 ≤ v) (hlt : v < 2 ^ 31) (rest : List UInt8) :
    get_sleb128 (dbuf_put_sleb128 v ++ rest) = some (v, rest) := by
  have hzigzag := zigzag hle hlt
  rw [get_sleb128, dbuf_put_sleb128, get_dbuf_put_leb128 (BitVec.isLt _), Option.map_some]
  generalize ((2#32 * BitVec.ofInt 32 v) ^^^ -(BitVec.ofInt 32 v >>> 31)).toNat = x at hzigzag
  dsimp only
  congr 2
  split_ifs at hzigzag <;> split_ifs <;> omega

/-- **One entry** reads back as the two differences. -/
theorem entry_put {diff_pc diff_line : ℤ} (hpc : 0 ≤ diff_pc) (hpc' : diff_pc < 2 ^ 31)
    (hle : -2 ^ 31 ≤ diff_line) (hlt : diff_line < 2 ^ 31) (rest : List UInt8) :
    entry (putEntry diff_pc diff_line ++ rest) = some (diff_pc.toNat, diff_line, rest) := by
  rw [putEntry]
  split_ifs with hshort
  · obtain ⟨hlo, hhi, hdiff⟩ := hshort
    obtain ⟨d, rfl⟩ := Int.eq_ofNat_of_zero_le hpc
    obtain ⟨l, hl⟩ := Int.eq_ofNat_of_zero_le (show 0 ≤ diff_line - -1 by omega)
    have hop : ((diff_line - -1) + d * 5 + 1).toNat = l + d * 5 + 1 := by omega
    have hbyte : (UInt8.ofNat (l + d * 5 + 1)).toNat = l + d * 5 + 1 := by
      rw [UInt8.toNat_ofNat']
      omega
    have hne : UInt8.ofNat (l + d * 5 + 1) ≠ 0 := by
      intro heq
      rw [heq] at hbyte
      exact absurd hbyte (Nat.succ_ne_zero _).symm
    rw [hop, List.singleton_append, entry, if_neg hne]
    dsimp only
    rw [hbyte, Int.toNat_natCast]
    congr 3 <;> omega
  · have hcast : toUint32 diff_pc = diff_pc.toNat := by
      unfold toUint32
      omega
    rw [List.cons_append, List.append_assoc, entry, if_pos rfl, hcast,
      get_dbuf_put_leb128 (by omega), Option.bind_eq_bind, Option.bind_some]
    dsimp only
    rw [get_dbuf_put_sleb128 hle hlt, Option.bind_eq_bind, Option.bind_some]

/-! ## The table of a function -/

/-- The slot of a step. -/
def slotOf (step : ℕ × ℕ) : LineNumberSlot := ⟨step.1, step.2⟩

/-- **The bytes of a function** decode to its places where the line changes. -/
theorem decodes_putSlots {byte_code_len pc line : ℕ} {steps : List (ℕ × ℕ)}
    (hascending : Ascending pc steps) (hlen : byte_code_len < 2 ^ 31) (hline : line < 2 ^ 31)
    (hsteps : ∀ step ∈ steps, step.1 ≤ byte_code_len ∧ step.2 < 2 ^ 31) :
    Decodes byte_code_len (putSlots pc line (steps.map slotOf)) pc line (changes line steps) := by
  induction steps generalizing pc line with
  | nil => exact Decodes.nil pc line
  | cons step steps ih =>
    obtain ⟨p, l⟩ := step
    obtain ⟨⟨hp, hl⟩, hsteps⟩ := List.forall_mem_cons.mp hsteps
    obtain ⟨hle, hascending⟩ := hascending
    have hp : p ≤ byte_code_len := hp
    have hl : l < 2 ^ 31 := hl
    have hpc : toInt ((p : ℤ) - pc) = (p : ℤ) - pc := Int.bmod_eq_of_le (by omega) (by omega)
    have hdiff : toInt ((l : ℤ) - line) = (l : ℤ) - line :=
      Int.bmod_eq_of_le (by omega) (by omega)
    rw [List.map_cons, slotOf, putSlots]
    dsimp only
    rw [hpc, hdiff, if_neg (by omega)]
    by_cases hsame : l = line
    · subst hsame
      rw [changes, if_pos rfl, if_pos (.inl (by omega))]
      exact ih (hascending.mono hle) hline hsteps
    · rw [changes, if_neg hsame, if_neg (by omega)]
      have hval : pc + ((p : ℤ) - pc).toNat = p := by omega
      have hrest := ih hascending hl hsteps
      rw [← hval] at hrest hp
      have hcons := Decodes.cons (entry_put (by omega) (by omega) (by omega) (by omega) _) hp
        (show (l : ℤ) = line + (l - line) by omega) hl hrest
      rwa [hval] at hcons

/-! ## Noting the places -/

theorem toInt_ofNat {n : ℕ} (h : n < 2 ^ 31) : toInt n = n :=
  Int.bmod_eq_of_le (by omega) (by omega)

theorem add_pc2line_info_fixed (s : JSFunctionDef) (pc : ℕ) (line_num : ℤ) :
    (add_pc2line_info s pc line_num).js_mode_strip = s.js_mode_strip ∧
      (add_pc2line_info s pc line_num).line_num = s.line_num ∧
      (s.line_number_slots = none → add_pc2line_info s pc line_num = s) := by
  rw [add_pc2line_info]
  split
  · exact ⟨rfl, rfl, fun _ => rfl⟩
  · have hsome : s.line_number_slots ≠ none := by simp only [*, ne_eq, reduceCtorEq,
      not_false_eq_true]
    split_ifs
    · exact ⟨rfl, rfl, fun h => absurd h hsome⟩
    · exact ⟨rfl, rfl, fun _ => rfl⟩

theorem emit_fixed (s : JSFunctionDef) (size : ℕ) (code : Code) :
    (emit s size code).js_mode_strip = s.js_mode_strip ∧
      (emit s size code).line_num = s.line_num ∧
      (s.line_number_slots = none → emit s size code = s) := by
  induction code generalizing s size with
  | nil => exact ⟨rfl, rfl, fun _ => rfl⟩
  | cons c code ih =>
    obtain ⟨hstrip, hline, hnone⟩ := add_pc2line_info_fixed s size c.1
    obtain ⟨hstrip', hline', -⟩ := ih (add_pc2line_info s size c.1) (size + c.2)
    refine ⟨hstrip'.trans hstrip, hline'.trans hline, fun h => ?_⟩
    rw [emit, hnone h]
    exact (ih s _).2.2 h

/-- A call for the line there is already changes nothing. -/
theorem add_pc2line_info_same {s : JSFunctionDef} {line_num : ℤ}
    (hlast : s.line_number_last = line_num) (pc : ℕ) : add_pc2line_info s pc line_num = s := by
  rw [add_pc2line_info]
  split
  · rfl
  · exact if_neg fun hchange => hchange.2.2 hlast.symm

/-- A call for another line notes the place, while there is room. -/
theorem add_pc2line_info_new {s : JSFunctionDef} {line_num : ℤ} {pc : ℕ}
    {slots : List LineNumberSlot} (hslots : s.line_number_slots = some slots)
    (hcount : slots.length < s.line_number_size) (hpc : toUint32 s.line_number_last_pc ≤ pc)
    (hlast : s.line_number_last ≠ line_num) (hlt : pc < 2 ^ 31) :
    ∃ s', add_pc2line_info s pc line_num = s' ∧
      s'.line_number_slots = some (slots ++ [⟨pc, line_num⟩]) ∧ s'.line_number_last = line_num ∧
      toUint32 s'.line_number_last_pc = pc ∧ s'.line_number_size = s.line_number_size := by
  refine ⟨_, rfl, ?_⟩
  rw [add_pc2line_info, hslots]
  dsimp only
  rw [if_pos ⟨hcount, hpc, hlast.symm⟩]
  have hround : toUint32 (toInt pc) = pc := by rw [toInt_ofNat hlt, toUint32_ofNat (by omega)]
  generalize toInt pc = last at hround
  exact ⟨rfl, rfl, hround, rfl⟩

/-- While the code is put out, the slots are the places where its line changes. -/
theorem slots_emit {s : JSFunctionDef} {size line : ℕ} {code : Code} {slots : List LineNumberSlot}
    (hslots : s.line_number_slots = some slots) (hlast : s.line_number_last = line)
    (hpc : toUint32 s.line_number_last_pc ≤ size) (hsize : size + total code < 2 ^ 31)
    (hcount : slots.length + (changes line (starts size code)).length ≤ s.line_number_size) :
    (emit s size code).line_number_slots =
      some (slots ++ (changes line (starts size code)).map slotOf) := by
  induction code generalizing s size line slots with
  | nil => rw [emit, hslots, starts, changes, List.map_nil, List.append_nil]
  | cons c code ih =>
    obtain ⟨l, n⟩ := c
    have hsize : size + (n + total code) < 2 ^ 31 := hsize
    rw [starts] at hcount ⊢
    rw [emit]
    by_cases hsame : l = line
    · subst hsame
      rw [changes, if_pos rfl] at hcount ⊢
      rw [add_pc2line_info_same hlast]
      exact ih hslots hlast (hpc.trans (Nat.le_add_right _ _)) (by omega) hcount
    · rw [changes, if_neg hsame] at hcount ⊢
      rw [List.length_cons] at hcount
      have hother : s.line_number_last ≠ (l : ℤ) := by
        rw [hlast]
        exact fun heq => hsame (Int.ofNat.inj heq).symm
      obtain ⟨s', hadd, hslots', hlast', hpc', hsize'⟩ :=
        add_pc2line_info_new hslots (by omega) hpc hother (by omega)
      rw [hadd, ih hslots' hlast' (by omega) (by omega) ?_, List.map_cons, List.append_assoc]
      · rfl
      · rw [hsize', List.length_append, List.length_singleton]
        omega

/-! ## Shrinking the jumps -/

/-- Taking bytes out moves the slots as it moves the chunks. -/
theorem slots_shrink {s : JSFunctionDef} {line : ℕ} {code : Code} {j : Jump} (h : j.Fits code)
    (hslots : s.line_number_slots = some ((changes line (starts 0 code)).map slotOf)) :
    (shrink s (j.pos code) j.delta).line_number_slots =
      some ((changes line (starts 0 (j.cut code))).map slotOf) := by
  obtain ⟨hplace, hdelta, ⟨l, n⟩, hc, hn⟩ := h
  have hn : j.place + j.size + j.delta ≤ n := hn
  have hcut := @starts_modify ℕ 0 j.chunk j.place j.delta n l code hc hdelta (by omega)
  rw [shrink, hslots, Jump.cut, hcut, changes_map, List.map_map, Option.map_some, List.map_map,
    Jump.pos, Nat.zero_add]
  refine congrArg some (List.map_congr_left fun step _ => ?_)
  simp only [Function.comp_apply, slotOf, Prod.map, id]
  split_ifs with hbehind
  · exact if_pos hbehind
  · exact if_neg hbehind

theorem slots_shrinkAll {s : JSFunctionDef} {line : ℕ} {code : Code} {jumps : List Jump}
    (h : AllFit code jumps)
    (hslots : s.line_number_slots = some ((changes line (starts 0 code)).map slotOf)) :
    (shrinkAll s code jumps).line_number_slots =
      some ((changes line (starts 0 (cutAll code jumps))).map slotOf) := by
  induction jumps generalizing s code with
  | nil => exact hslots
  | cons j jumps ih => exact ih h.2 (slots_shrink h.1 hslots)

theorem shrinkAll_fixed (s : JSFunctionDef) (code : Code) (jumps : List Jump) :
    (shrinkAll s code jumps).js_mode_strip = s.js_mode_strip ∧
      (shrinkAll s code jumps).line_num = s.line_num ∧
      (s.line_number_slots = none → (shrinkAll s code jumps).line_number_slots = none) := by
  induction jumps generalizing s code with
  | nil => exact ⟨rfl, rfl, id⟩
  | cons j jumps ih =>
    obtain ⟨hstrip, hline, hnone⟩ := ih (shrink s (j.pos code) j.delta) (j.cut code)
    refine ⟨hstrip, hline, fun h => hnone ?_⟩
    rw [shrink, h, Option.map_none]

theorem lines_cutAll (code : Code) (jumps : List Jump) :
    (cutAll code jumps).map Prod.fst = code.map Prod.fst := by
  induction jumps generalizing code with
  | nil => rfl
  | cons j jumps ih => exact (ih _).trans (map_fst_modify code)

theorem total_cutAll_le (code : Code) (jumps : List Jump) :
    total (cutAll code jumps) ≤ total code := by
  induction jumps generalizing code with
  | nil => exact le_refl _
  | cons j jumps ih => exact (ih _).trans (total_modify_le code)

/-! ## The line of every byte -/

theorem changes_starts_eq_nil_iff {line q : ℕ} {code : Code} :
    changes line (starts q code) = [] ↔ ∀ l ∈ code.map Prod.fst, l = line := by
  rw [changes_eq_nil_iff, ← map_snd_starts q code, List.forall_mem_map]

/-- The slots, when all is compiled. -/
theorem table_eq {s : JSFunctionDef} {line_num prologue : ℕ} {code : Code} {jumps : List Jump}
    (hstrip : s.js_mode_strip = false) (hnull : s.line_number_slots = none)
    (hline : s.line_num = line_num) (hsize : total ((line_num, prologue) :: code) < 2 ^ 31)
    (hcount : (changes line_num (starts prologue code)).length ≤ s.line_number_size)
    (hjumps : AllFit ((line_num, prologue) :: code) jumps) :
    resolve_labels s line_num prologue code jumps =
      putSlots 0 line_num ((changes line_num
        (starts 0 (cutAll ((line_num, prologue) :: code) jumps))).map slotOf) := by
  have hfirst : changes line_num (starts 0 ((line_num, prologue) :: code)) =
      changes line_num (starts prologue code) := by
    rw [starts, changes, if_pos rfl, Nat.zero_add]
  obtain ⟨hstrip', hline', hnone⟩ :=
    shrinkAll_fixed (emit s.start prologue code) ((line_num, prologue) :: code) jumps
  obtain ⟨hstrip'', hline'', hnone''⟩ := emit_fixed s.start prologue code
  rw [resolve_labels, compute_pc2line_info, hstrip', hstrip'', hline', hline'']
  by_cases hzero : s.line_number_size = 0
  · -- no slots are allocated, and the line never changes
    have hstart : s.start = s := by rw [JSFunctionDef.start, if_neg fun h => h.1 hzero]
    rw [hstart] at hnone hnone'' ⊢
    have hnull' : (emit s prologue code).line_number_slots = none := by rw [hnone'' hnull, hnull]
    have hempty : changes line_num (starts prologue code) = [] :=
      List.length_eq_zero_iff.mp (by omega)
    have hsame : changes line_num
        (starts 0 (cutAll ((line_num, prologue) :: code) jumps)) = [] := by
      rw [changes_starts_eq_nil_iff, lines_cutAll, ← changes_starts_eq_nil_iff, hfirst, hempty]
    rw [if_pos hstrip, hnone hnull', hsame]
    rfl
  · have hstart : s.start =
        { s with
          line_number_slots := some []
          line_number_last := s.line_num
          line_number_last_pc := 0 } := by
      rw [JSFunctionDef.start, if_pos ⟨hzero, hstrip⟩]
    have hroom : ([] : List LineNumberSlot).length +
        (changes line_num (starts prologue code)).length ≤ s.line_number_size := by
      rwa [List.length_nil, Nat.zero_add]
    have hslots : s.start.line_number_slots = some [] := by rw [hstart]
    have hlast : s.start.line_number_last = line_num := by rw [hstart, hline]
    have hpc : toUint32 s.start.line_number_last_pc ≤ prologue := by
      rw [hstart]
      exact Nat.zero_le prologue
    have hcount : ([] : List LineNumberSlot).length +
        (changes line_num (starts prologue code)).length ≤ s.start.line_number_size := by
      rwa [List.length_nil, Nat.zero_add, hstart]
    have hemit := slots_emit hslots hlast hpc hsize hcount
    rw [List.nil_append, ← hfirst] at hemit
    rw [slots_shrinkAll hjumps hemit, hstart, hline, if_pos hstrip]

/-- **Every byte of a compiled function** is on the line it was emitted for, also after jumps have
    been shrunk; a function that never leaves its first line has no line table, and no line. -/
theorem compiled_line_num {s : JSFunctionDef} {line_num prologue : ℕ} {code : Code}
    {jumps : List Jump} (filename : String) (hstrip : s.js_mode_strip = false)
    (hnull : s.line_number_slots = none) (hline : s.line_num = line_num)
    (hlines : ∀ l ∈ line_num :: code.map Prod.fst, l < 2 ^ 31)
    (hsize : total ((line_num, prologue) :: code) < 2 ^ 31)
    (hcount : (changes line_num (starts prologue code)).length ≤ s.line_number_size)
    (hjumps : AllFit ((line_num, prologue) :: code) jumps)
    (hpos : 0 < total (cutAll ((line_num, prologue) :: code) jumps)) :
    ∃ b : JSFunctionBytecode, b.filename = filename ∧ b.line_num = line_num ∧
      b.byte_code_len = total (cutAll ((line_num, prologue) :: code) jumps) ∧
      b.pc2line_buf = pc2line_buf (resolve_labels s line_num prologue code jumps) ∧
      ∀ pc < b.byte_code_len,
        ∃ l, chunkAt (cutAll ((line_num, prologue) :: code) jumps) pc = some l ∧
          find_line_num b pc = if ∀ l ∈ code.map Prod.fst, l = line_num then -1 else (l : ℤ) := by
  rw [table_eq hstrip hnull hline hsize hcount hjumps]
  have hlines' : ∀ l ∈ (cutAll ((line_num, prologue) :: code) jumps).map Prod.fst, l < 2 ^ 31 := by
    rw [lines_cutAll]
    exact hlines
  have hsame : changes line_num (starts 0 (cutAll ((line_num, prologue) :: code) jumps)) = [] ↔
      ∀ l ∈ code.map Prod.fst, l = line_num := by
    rw [changes_starts_eq_nil_iff, lines_cutAll, List.map_cons, List.forall_mem_cons,
      and_iff_right rfl]
  have hlen := lt_of_le_of_lt (total_cutAll_le ((line_num, prologue) :: code) jumps) hsize
  generalize cutAll ((line_num, prologue) :: code) jumps = code' at *
  have hascending := ascending_starts 0 code'
  have hsteps : ∀ step ∈ changes line_num (starts 0 code'),
      step.1 ≤ total code' ∧ step.2 < 2 ^ 31 := by
    intro step hstep
    have hmem := mem_of_mem_changes hstep
    refine ⟨by have := (starts_le hmem).2; omega, hlines' _ ?_⟩
    rw [← map_snd_starts 0 code']
    exact List.mem_map_of_mem hmem
  have hdecodes := decodes_putSlots hascending.changes hlen
    (hlines line_num List.mem_cons_self) hsteps
  rw [changes_changes] at hdecodes
  generalize htable : putSlots 0 line_num ((changes line_num (starts 0 code')).map slotOf) = table
    at hdecodes
  have hbuf : (pc2line_buf table).getD [] = table := by
    rw [pc2line_buf]
    split_ifs with hnil
    · rw [hnil, Option.getD_none]
    · rw [Option.getD_some]
  refine ⟨⟨filename, total code', line_num, pc2line_buf table, _, hpos, hlen,
    hlines line_num List.mem_cons_self, by rwa [hbuf]⟩, rfl, rfl, rfl, rfl, fun pc hpc => ?_⟩
  refine ⟨_, valueAt_starts line_num hpc, ?_⟩
  split_ifs with hconst
  · have hnil : table = [] := by rw [← htable, hsame.mpr hconst]; rfl
    rw [find_line_num]
    simp only [pc2line_buf, hnil, if_true]
  · have hne : table ≠ [] := by
      rintro rfl
      generalize changes line_num (starts 0 code') = steps at hdecodes hsame
      cases hdecodes with
      | nil => exact hconst (hsame.mp rfl)
      | cons hentry => cases hentry
    rw [find_line_num_eq (p := table) (if_neg hne)]
    dsimp only
    rw [valueAt_changes _ hascending]

/-- A function of 13 bytes, whose jump on line 4 loses 3 of them. -/
def shrunk : JSFunctionDef := ⟨false, 1, none, 3, 0, 0⟩

def shrunkCode : Code := [(1, 3), (4, 6), (90, 2)]

theorem compiled_line_num_shrunk :
    ∃ b : JSFunctionBytecode, b.filename = "a.js" ∧ b.line_num = 1 ∧
      b.byte_code_len = total (cutAll ((1, 2) :: shrunkCode) [⟨2, 1, 1, 3⟩]) ∧
      b.pc2line_buf = pc2line_buf (resolve_labels shrunk 1 2 shrunkCode [⟨2, 1, 1, 3⟩]) ∧
      ∀ pc < b.byte_code_len,
        ∃ l, chunkAt (cutAll ((1, 2) :: shrunkCode) [⟨2, 1, 1, 3⟩]) pc = some l ∧
          find_line_num b pc =
            if ∀ l ∈ shrunkCode.map Prod.fst, l = 1 then -1 else (l : ℤ) :=
  compiled_line_num (s := shrunk) "a.js" rfl rfl rfl (by decide) (by decide) (by decide)
    ⟨⟨by decide, by decide, (4, 6), rfl, by decide⟩, trivial⟩ (by decide)

end JSEngine.Debugger.LineEncoding
