import Mathlib.Data.List.Chain
import Mathlib.Data.List.TakeWhile
import JSEngine.Common.ModifiedUtf8
import JSEngine.Java.Basic

/-!
# Strings between Java and script

A Java string reaches an engine as the C string of `GetStringUTFChars`, modified
UTF-8, and comes back through `NewStringUTF`. QuickJS decodes the C string with
`JS_NewString` and encodes with `JS_ToCString`, both standard UTF-8; Duktape keeps
the bytes and decodes them when script asks for a code unit.

* `JS_NewString_getStringUTFChars`: script sees U+FFFD for U+0000 and every other
  code unit as it is;
* `newStringUTF_JS_ToCString`: what comes back, where it does;
* `charCodes_encodeAll`: Duktape shows script the code units;
* `string_kept_iff`: the strings that survive both ways.
-/

namespace JSEngine.Scalars

open JSEngine.Java JSEngine.Common

/-- The two engines. -/
inductive Engine
  | quickJS | duktape
  deriving DecidableEq, Repr

/-! ## JNI -/

/-- The bytes of a C string in front of its NUL. -/
def cString (buf : List ℕ) : List ℕ := buf.takeWhile (· ≠ 0)

/-- `GetStringUTFChars`, without the NUL at the end. -/
def getStringUTFChars (s : JString) : List ℕ := modifiedUtf8.encodeAll s

/-- `NewStringUTF`; the JNI gives no result for bytes that are not modified UTF-8. -/
def newStringUTF (buf : List ℕ) : Option JString := modifiedUtf8.decodeAll (cString buf)

theorem cString_of_forall {buf : List ℕ} (h : ∀ b ∈ buf, b ≠ 0) : cString buf = buf := by
  unfold cString
  rw [List.takeWhile_eq_self_iff]
  intro b hb
  exact decide_eq_true (h b hb)

theorem cString_getStringUTFChars (s : JString) :
    cString (getStringUTFChars s) = getStringUTFChars s :=
  cString_of_forall fun _ hb => (bounds_of_mem_encodeAll hb).1

theorem newStringUTF_getStringUTFChars (s : JString) :
    newStringUTF (getStringUTFChars s) = some s := by
  unfold newStringUTF
  rw [cString_getStringUTFChars, modifiedUtf8.decodeAll_eq_some_iff]
  rfl

/-! ## QuickJS: decoding -/

/-- The bytes that follow a leading byte: `l` in `unicode_from_utf8`
    (cutils.c:260–278). -/
def sequenceLength (c : ℕ) : Option ℕ :=
  if c < 0xC0 then none
  else if c < 0xE0 then some 1
  else if c < 0xF0 then some 2
  else if c < 0xF8 then some 3
  else if c < 0xFC then some 4
  else if c < 0xFE then some 5
  else none

/-- `utf8_first_code_mask[l - 1] + 1` (cutils.c:245–247). -/
def firstCodeSize : ℕ → ℕ
  | 1 => 0x20
  | 2 => 0x10
  | 3 => 0x8
  | 4 => 0x4
  | _ => 0x2

/-- `utf8_min_code[l - 1]` (cutils.c:241–243). -/
def utf8MinCode : ℕ → ℕ
  | 1 => 0x80
  | 2 => 0x800
  | 3 => 0x10000
  | 4 => 0x200000
  | _ => 0x4000000

/-- The loop over the continuation bytes (cutils.c:283–288). -/
def readContinuation : ℕ → ℕ → List ℕ → Option (ℕ × List ℕ)
  | 0, c, p => some (c, p)
  | _ + 1, _, [] => none
  | l + 1, c, b :: p => if b < 0x80 ∨ 0xC0 ≤ b then none else readContinuation l (c * 64 + b % 64) p

/-- `unicode_from_utf8` (cutils.c:251–293): the code point and the bytes behind
    it, `none` for −1. -/
def unicodeFromUtf8 : List ℕ → Option (ℕ × List ℕ)
  | [] => none
  | c :: p =>
    if c < 0x80 then some (c, p)
    else
      match sequenceLength c with
      | none => none
      | some l =>
        if p.length < l then none
        else
          match readContinuation l (c % firstCodeSize l) p with
          | none => none
          | some (c, p) => if c < utf8MinCode l then none else some (c, p)

/-- The bytes behind an invalid sequence (quickjs.c:3894–3900). -/
def skipInvalid (p : List ℕ) : List ℕ :=
  match p.dropWhile (IsContinuation ·) with
  | [] => []
  | _ :: p => p.dropWhile (IsContinuation ·)

/-- One round of the loop over the bytes (quickjs.c:3876–3903): the code units
    put into the buffer, and the bytes left. -/
def putNext (p : List ℕ) : JString × List ℕ :=
  match p with
  | [] => ([], [])
  | b :: rest =>
    if b < 128 then ([BitVec.ofNat 16 b], rest)
    else
      match unicodeFromUtf8 p with
      | none => ([0xFFFD#16], skipInvalid p)
      | some (c, next) =>
        if c < 0x10000 then ([BitVec.ofNat 16 c], next)
        else if c ≤ 0x10FFFF then
          ([BitVec.ofNat 16 ((c - 0x10000) / 0x400 + 0xD800),
            BitVec.ofNat 16 ((c - 0x10000) % 0x400 + 0xDC00)], next)
        else ([0xFFFD#16], skipInvalid p)

/-- `while (p < p_end)`, at most `n` rounds. -/
def putLoop : ℕ → List ℕ → JString
  | 0, _ => []
  | _ + 1, [] => []
  | n + 1, b :: p => (putNext (b :: p)).1 ++ putLoop n (putNext (b :: p)).2

/-- A `JSString`: its code units, in bytes or in 16-bit words. -/
structure JSString where
  units : JString
  isWide : Bool
  narrow : isWide = false → ∀ u ∈ units, u.toNat < 0x100
  deriving DecidableEq

/-- `string_buffer_end`: a buffer turns wide at the first unit beyond a byte. -/
def JSString.ofUnits (units : JString) : JSString where
  units
  isWide := units.any (0x100 ≤ ·.toNat)
  narrow h u hu := by simpa using List.any_eq_false.mp h u hu

/-- `JS_NewStringLen` (quickjs.c:3853–3911); the ASCII prefix is copied. -/
def JS_NewStringLen (buf : List ℕ) : JSString :=
  .ofUnits ((buf.takeWhile (· < 128)).map (BitVec.ofNat 16) ++
    putLoop buf.length (buf.dropWhile (· < 128)))

/-- `JS_NewString`. -/
def JS_NewString (str : List ℕ) : JSString := JS_NewStringLen (cString str)

/-! ### Decoding modified UTF-8 -/

/-- What script sees for a code unit. -/
def seen (c : BitVec 16) : BitVec 16 := if c = 0#16 then 0xFFFD#16 else c

theorem unicodeFromUtf8_encodeUnit {c : BitVec 16} (hc : 0x80 ≤ c.toNat) (rest : List ℕ) :
    unicodeFromUtf8 (encodeUnit c ++ rest) = some (c.toNat, rest) := by
  have hlt : c.toNat < 65536 := c.isLt
  unfold encodeUnit
  rw [if_neg (by omega)]
  split_ifs with h
  · have hl : sequenceLength (0xC0 + c.toNat / 64) = some 1 := by
      unfold sequenceLength
      rw [if_neg (by omega), if_pos (by omega)]
    simp only [List.cons_append, List.nil_append, unicodeFromUtf8, hl, readContinuation,
      firstCodeSize, utf8MinCode, List.length_cons]
    rw [if_neg (by omega), if_neg (by omega), if_neg (by omega)]
    have hcode : (0xC0 + c.toNat / 64) % 0x20 * 64 + (0x80 + c.toNat % 64) % 64 = c.toNat := by
      omega
    dsimp only
    rw [hcode, if_neg (by omega)]
  · have hl : sequenceLength (0xE0 + c.toNat / 4096) = some 2 := by
      unfold sequenceLength
      rw [if_neg (by omega), if_neg (by omega), if_pos (by omega)]
    simp only [List.cons_append, List.nil_append, unicodeFromUtf8, hl, readContinuation,
      firstCodeSize, utf8MinCode, List.length_cons]
    rw [if_neg (by omega), if_neg (by omega), if_neg (by omega), if_neg (by omega)]
    have hcode : ((0xE0 + c.toNat / 4096) % 0x10 * 64 + (0x80 + c.toNat / 64 % 64) % 64) * 64 +
        (0x80 + c.toNat % 64) % 64 = c.toNat := by omega
    dsimp only
    rw [hcode, if_neg (by omega)]

/-- The words of code units do not begin inside a sequence. -/
theorem dropWhile_encodeAll (s : JString) :
    (modifiedUtf8.encodeAll s).dropWhile (IsContinuation ·) = modifiedUtf8.encodeAll s := by
  cases s with
  | nil => rfl
  | cons c s =>
    obtain ⟨b, rest, hword, hb, -⟩ := head_encodeUnit c
    rw [PrefixCode.encodeAll_cons]
    show List.dropWhile _ (encodeUnit c ++ _) = encodeUnit c ++ _
    rw [hword, List.cons_append, List.dropWhile_cons_of_neg (by simpa using hb)]

/-- The two bytes of U+0000 are no sequence. -/
theorem skipInvalid_nul (s : JString) :
    skipInvalid (encodeUnit 0#16 ++ modifiedUtf8.encodeAll s) = modifiedUtf8.encodeAll s := by
  have hlead : ¬IsContinuation 0xC0 := by decide
  have hnext : IsContinuation 0x80 := by decide
  show skipInvalid (0xC0 :: 0x80 :: modifiedUtf8.encodeAll s) = _
  unfold skipInvalid
  rw [List.dropWhile_cons_of_neg (by simpa using hlead)]
  dsimp only
  rw [List.dropWhile_cons_of_pos (by simpa using hnext), dropWhile_encodeAll]

theorem putNext_ascii {b : ℕ} {rest : List ℕ} (hb : b < 128) :
    putNext (b :: rest) = ([BitVec.ofNat 16 b], rest) := by
  simp only [putNext, if_pos hb]

theorem putNext_unit {p next : List ℕ} {b c : ℕ} (hb : p.head? = some b) (hlead : ¬b < 128)
    (h : unicodeFromUtf8 p = some (c, next)) (hc : c < 0x10000) :
    putNext p = ([BitVec.ofNat 16 c], next) := by
  obtain ⟨rest, rfl⟩ : ∃ rest, p = b :: rest := by
    cases p with
    | nil => simp at hb
    | cons b' rest => exact ⟨rest, by simpa using hb⟩
  simp only [putNext, if_neg hlead, h, if_pos hc]

theorem putNext_invalid {p : List ℕ} {b : ℕ} (hb : p.head? = some b) (hlead : ¬b < 128)
    (h : unicodeFromUtf8 p = none) : putNext p = ([0xFFFD#16], skipInvalid p) := by
  obtain ⟨rest, rfl⟩ : ∃ rest, p = b :: rest := by
    cases p with
    | nil => simp at hb
    | cons b' rest => exact ⟨rest, by simpa using hb⟩
  simp only [putNext, if_neg hlead, h]

/-- The words other than those of ASCII characters begin beyond ASCII. -/
theorem head_not_ascii {c : BitVec 16} (h : ¬(1 ≤ c.toNat ∧ c.toNat < 0x80)) :
    ∃ b rest, encodeUnit c = b :: rest ∧ ¬b < 128 := by
  unfold encodeUnit
  rw [if_neg h]
  split_ifs
  · exact ⟨_, _, rfl, by omega⟩
  · exact ⟨_, _, rfl, by omega⟩

theorem putNext_encodeUnit (c : BitVec 16) (s : JString) :
    putNext (encodeUnit c ++ modifiedUtf8.encodeAll s) =
      ([seen c], modifiedUtf8.encodeAll s) := by
  by_cases hascii : 1 ≤ c.toNat ∧ c.toNat < 0x80
  · have hword : encodeUnit c = [c.toNat] := if_pos hascii
    have hseen : seen c = c := if_neg fun h => by simp [h] at hascii
    rw [hword, hseen, List.singleton_append, putNext_ascii hascii.2, BitVec.ofNat_toNat,
      BitVec.setWidth_eq]
  · obtain ⟨b, rest, hword, hb⟩ := head_not_ascii hascii
    have hhead : (encodeUnit c ++ modifiedUtf8.encodeAll s).head? = some b := by
      rw [hword]
      rfl
    by_cases h0 : c = 0#16
    · subst h0
      rw [putNext_invalid hhead hb rfl, skipInvalid_nul]
      rfl
    · have hpos : c.toNat ≠ 0 := fun h => h0 (BitVec.eq_of_toNat_eq h)
      have hseen : seen c = c := if_neg h0
      have hcode := unicodeFromUtf8_encodeUnit (c := c) (by omega) (modifiedUtf8.encodeAll s)
      rw [putNext_unit hhead hb hcode c.isLt, hseen, BitVec.ofNat_toNat, BitVec.setWidth_eq]

theorem putLoop_encodeAll {n : ℕ} {s : JString} (hn : (modifiedUtf8.encodeAll s).length ≤ n) :
    putLoop n (modifiedUtf8.encodeAll s) = s.map seen := by
  induction s generalizing n with
  | nil => cases n <;> rfl
  | cons c s ih =>
    have hnext := putNext_encodeUnit c s
    have hpos := modifiedUtf8.encode_length_pos c
    rw [PrefixCode.encodeAll_cons] at hn ⊢
    rw [List.length_append] at hn
    obtain ⟨b, rest, hword, -, -⟩ := head_encodeUnit c
    obtain ⟨m, rfl⟩ : ∃ m, n = m + 1 := ⟨n - 1, by omega⟩
    show putLoop (m + 1) (encodeUnit c ++ _) = _
    rw [hword, List.cons_append] at hnext ⊢
    unfold putLoop
    rw [hnext]
    dsimp only
    rw [ih (by omega)]
    rfl

/-- Copying the ASCII prefix does what the loop does. -/
theorem prefix_putLoop {n : ℕ} {s : JString} (hn : (modifiedUtf8.encodeAll s).length ≤ n) :
    ((modifiedUtf8.encodeAll s).takeWhile (· < 128)).map (BitVec.ofNat 16) ++
      putLoop n ((modifiedUtf8.encodeAll s).dropWhile (· < 128)) = s.map seen := by
  induction s with
  | nil => cases n <;> rfl
  | cons c s ih =>
    by_cases hascii : 1 ≤ c.toNat ∧ c.toNat < 0x80
    · have hword : modifiedUtf8.encodeAll (c :: s) = c.toNat :: modifiedUtf8.encodeAll s := by
        rw [PrefixCode.encodeAll_cons]
        show encodeUnit c ++ _ = _
        rw [encodeUnit, if_pos hascii]
        rfl
      have hseen : seen c = c := if_neg fun h => by simp [h] at hascii
      rw [hword, List.length_cons] at hn
      rw [hword, List.takeWhile_cons_of_pos (by simpa using hascii.2),
        List.dropWhile_cons_of_pos (by simpa using hascii.2), List.map_cons, List.cons_append,
        ih (by omega), List.map_cons, hseen, BitVec.ofNat_toNat, BitVec.setWidth_eq]
    · obtain ⟨b, rest, hword, hb⟩ := head_not_ascii hascii
      have hall : modifiedUtf8.encodeAll (c :: s) = b :: (rest ++ modifiedUtf8.encodeAll s) := by
        rw [PrefixCode.encodeAll_cons]
        show encodeUnit c ++ _ = _
        rw [hword]
        rfl
      rw [← putLoop_encodeAll hn, hall, List.takeWhile_cons_of_neg (by simpa using hb),
        List.dropWhile_cons_of_neg (by simpa using hb)]
      rfl

/-- **Script sees U+FFFD for U+0000, and every other code unit as it is.** -/
theorem JS_NewString_getStringUTFChars (s : JString) :
    JS_NewString (getStringUTFChars s) = .ofUnits (s.map seen) := by
  unfold JS_NewString JS_NewStringLen
  rw [cString_getStringUTFChars]
  unfold getStringUTFChars
  rw [prefix_putLoop (Nat.le_refl _)]

/-! ## QuickJS: encoding -/

/-- `unicode_to_utf8` (cutils.c:206–239). -/
def unicodeToUtf8 (c : ℕ) : List ℕ :=
  if c < 0x80 then [c]
  else if c < 0x800 then [c / 64 + 0xC0, c % 64 + 0x80]
  else if c < 0x10000 then [c / 4096 + 0xE0, c / 64 % 64 + 0x80, c % 64 + 0x80]
  else if c < 0x200000 then
    [c / 262144 + 0xF0, c / 4096 % 64 + 0x80, c / 64 % 64 + 0x80, c % 64 + 0x80]
  else if c < 0x4000000 then
    [c / 16777216 + 0xF8, c / 262144 % 64 + 0x80, c / 4096 % 64 + 0x80, c / 64 % 64 + 0x80,
      c % 64 + 0x80]
  else if c < 0x80000000 then
    [c / 1073741824 + 0xFC, c / 16777216 % 64 + 0x80, c / 262144 % 64 + 0x80,
      c / 4096 % 64 + 0x80, c / 64 % 64 + 0x80, c % 64 + 0x80]
  else []

/-- `c >= 0xd800 && c < 0xdc00`. -/
def IsHighSurrogate (c : BitVec 16) : Prop := 0xD800 ≤ c.toNat ∧ c.toNat < 0xDC00

/-- `c1 >= 0xdc00 && c1 < 0xe000`. -/
def IsLowSurrogate (c : BitVec 16) : Prop := 0xDC00 ≤ c.toNat ∧ c.toNat < 0xE000

instance : DecidablePred IsHighSurrogate := fun _ => inferInstanceAs (Decidable (_ ∧ _))

instance : DecidablePred IsLowSurrogate := fun _ => inferInstanceAs (Decidable (_ ∧ _))

/-- The bytes of an 8-bit string (quickjs.c:4002–4010). -/
def encodeNarrow (src : JString) : List ℕ :=
  src.flatMap fun c =>
    if c.toNat < 0x80 then [c.toNat] else [c.toNat / 64 + 0xC0, c.toNat % 64 + 0x80]

/-- The bytes of a 16-bit string (quickjs.c:4021–4044): a surrogate pair is one
    code point. -/
def encodeWide : JString → List ℕ
  | [] => []
  | [c] => unicodeToUtf8 c.toNat
  | c :: c1 :: src =>
    if IsHighSurrogate c ∧ IsLowSurrogate c1 then
      unicodeToUtf8 (c.toNat % 0x400 * 0x400 + c1.toNat % 0x400 + 0x10000) ++ encodeWide src
    else unicodeToUtf8 c.toNat ++ encodeWide (c1 :: src)

/-- `JS_ToCString` of a string: `JS_ToCStringLen2` without `cesu8`
    (quickjs.c:3962–4055). -/
def JS_ToCString (s : JSString) : List ℕ :=
  if s.isWide then encodeWide s.units else encodeNarrow s.units

/-! ### Encoding code units -/

/-- No high surrogate is directly followed by a low one. -/
def PairFree (s : JString) : Prop := s.IsChain fun c c1 => ¬(IsHighSurrogate c ∧ IsLowSurrogate c1)

instance : DecidablePred PairFree := fun _ => inferInstanceAs (Decidable (List.IsChain _ _))

theorem unicodeToUtf8_of_ne_zero {c : BitVec 16} (hc : c ≠ 0#16) :
    unicodeToUtf8 c.toNat = encodeUnit c := by
  have hpos : c.toNat ≠ 0 := fun h => hc (BitVec.eq_of_toNat_eq h)
  have hlt : c.toNat < 65536 := c.isLt
  unfold unicodeToUtf8 encodeUnit
  by_cases h1 : c.toNat < 0x80
  · have hascii : 1 ≤ c.toNat ∧ c.toNat < 0x80 := ⟨by omega, h1⟩
    rw [if_pos h1, if_pos hascii]
  · have hascii : ¬(1 ≤ c.toNat ∧ c.toNat < 0x80) := fun h => h1 h.2
    rw [if_neg h1, if_neg hascii]
    by_cases h2 : c.toNat < 0x800
    · rw [if_pos h2, if_pos h2, Nat.add_comm, Nat.add_comm (c.toNat % 64)]
    · rw [if_neg h2, if_neg h2, if_pos hlt, Nat.add_comm, Nat.add_comm (c.toNat / 64 % 64),
        Nat.add_comm (c.toNat % 64)]

/-- Below U+0100, both kinds of strings have the same bytes. -/
theorem encodeNarrow_eq {src : JString} (h : ∀ u ∈ src, u.toNat < 0x100) :
    encodeNarrow src = encodeWide src := by
  have hword : ∀ u : BitVec 16, u.toNat < 0x100 → unicodeToUtf8 u.toNat =
      if u.toNat < 0x80 then [u.toNat] else [u.toNat / 64 + 0xC0, u.toNat % 64 + 0x80] := by
    intro u hu
    unfold unicodeToUtf8
    by_cases h1 : u.toNat < 0x80
    · rw [if_pos h1, if_pos h1]
    · rw [if_neg h1, if_pos (by omega), if_neg h1]
  fun_induction encodeWide src with
  | case1 => rfl
  | case2 c =>
    rw [hword c (h c (by simp)), encodeNarrow, List.flatMap_singleton]
  | case3 c c1 src hpair ih =>
    have hc := h c (by simp)
    unfold IsHighSurrogate at hpair
    omega
  | case4 c c1 src hpair ih =>
    rw [hword c (h c (by simp)), ← ih fun u hu => h u (List.mem_cons_of_mem _ hu)]
    exact List.flatMap_cons

theorem JS_ToCString_ofUnits (s : JString) : JS_ToCString (.ofUnits s) = encodeWide s := by
  unfold JS_ToCString
  cases hw : (JSString.ofUnits s).isWide with
  | false => exact encodeNarrow_eq ((JSString.ofUnits s).narrow hw)
  | true => rfl

/-- Without surrogate pairs and U+0000, UTF-8 is modified UTF-8. -/
theorem encodeWide_of_pairFree {s : JString} (h0 : 0#16 ∉ s) (h : PairFree s) :
    encodeWide s = modifiedUtf8.encodeAll s := by
  unfold PairFree at h
  fun_induction encodeWide s with
  | case1 => rfl
  | case2 c =>
    rw [List.mem_singleton] at h0
    rw [unicodeToUtf8_of_ne_zero (Ne.symm h0), PrefixCode.encodeAll_cons]
    exact (List.append_nil _).symm
  | case3 c c1 src hpair ih =>
    rw [List.isChain_cons_cons] at h
    exact absurd hpair h.1
  | case4 c c1 src hpair ih =>
    rw [List.isChain_cons_cons] at h
    rw [List.mem_cons, not_or] at h0
    rw [unicodeToUtf8_of_ne_zero (Ne.symm h0.1), ih h0.2 h.2, PrefixCode.encodeAll_cons _ c]
    rfl

/-- A surrogate pair takes a byte that modified UTF-8 does not have. -/
theorem exists_mem_encodeWide {s : JString} (h : ¬PairFree s) : ∃ b ∈ encodeWide s, 0xF0 ≤ b := by
  unfold PairFree at h
  fun_induction encodeWide s with
  | case1 => exact absurd List.IsChain.nil h
  | case2 c => exact absurd (List.isChain_singleton c) h
  | case3 c c1 src hpair ih =>
    refine ⟨(c.toNat % 0x400 * 0x400 + c1.toNat % 0x400 + 0x10000) / 262144 + 0xF0,
      List.mem_append_left _ ?_, Nat.le_add_left _ _⟩
    unfold unicodeToUtf8
    rw [if_neg (by omega), if_neg (by omega), if_neg (by omega), if_pos (by omega)]
    exact List.mem_cons_self
  | case4 c c1 src hpair ih =>
    rw [List.isChain_cons_cons, not_and] at h
    obtain ⟨b, hb, hge⟩ := ih (h hpair)
    exact ⟨b, List.mem_append_right _ hb, hge⟩

theorem ne_zero_of_mem_encodeWide {s : JString} (h0 : 0#16 ∉ s) : ∀ b ∈ encodeWide s, b ≠ 0 := by
  have hunit : ∀ c : BitVec 16, 0#16 ≠ c → ∀ b ∈ unicodeToUtf8 c.toNat, b ≠ 0 := by
    intro c hc b hb
    rw [unicodeToUtf8_of_ne_zero (Ne.symm hc)] at hb
    exact (bounds_of_mem_encodeUnit hb).1
  fun_induction encodeWide s with
  | case1 => simp
  | case2 c => exact hunit c (by simpa using h0)
  | case3 c c1 src hpair ih =>
    intro b hb
    simp only [List.mem_cons, not_or] at h0
    rcases List.mem_append.mp hb with hb | hb
    · unfold unicodeToUtf8 at hb
      rw [if_neg (by omega), if_neg (by omega), if_neg (by omega), if_pos (by omega)] at hb
      simp only [List.mem_cons, List.not_mem_nil, or_false] at hb
      omega
    · exact ih h0.2.2 b hb
  | case4 c c1 src hpair ih =>
    intro b hb
    rw [List.mem_cons, not_or] at h0
    rcases List.mem_append.mp hb with hb | hb
    · exact hunit c h0.1 b hb
    · exact ih h0.2 b hb

/-- **A string without U+0000 comes back from QuickJS exactly where it has no
    surrogate pair.** -/
theorem newStringUTF_JS_ToCString {s : JString} (h0 : 0#16 ∉ s) :
    newStringUTF (JS_ToCString (.ofUnits s)) = if PairFree s then some s else none := by
  unfold newStringUTF
  rw [JS_ToCString_ofUnits, cString_of_forall (ne_zero_of_mem_encodeWide h0)]
  split_ifs with h
  · rw [modifiedUtf8.decodeAll_eq_some_iff]
    exact encodeWide_of_pairFree h0 h
  · rw [Option.eq_none_iff_forall_ne_some]
    intro t ht
    obtain ⟨b, hb, hge⟩ := exists_mem_encodeWide h
    rw [(modifiedUtf8.decodeAll_eq_some_iff).mp ht] at hb
    have := (bounds_of_mem_encodeAll hb).2
    omega

/-! ## Duktape -/

/-- The bits that a leading byte adds, and how many bytes follow
    (duktape.c:12004–12046). -/
def xutf8Lead (ch : ℕ) : Option (ℕ × ℕ) :=
  if ch < 0x80 then some (ch, 0)
  else if ch < 0xC0 then none
  else if ch < 0xE0 then some (ch % 0x20, 1)
  else if ch < 0xF0 then some (ch % 0x10, 2)
  else if ch < 0xF8 then some (ch % 0x08, 3)
  else if ch < 0xFC then some (ch % 0x04, 4)
  else if ch < 0xFE then some (ch % 0x02, 5)
  else if ch < 0xFF then some (0, 6)
  else none

/-- `duk_unicode_decode_xutf8` (duktape.c:11986–12076); what follows the leading
    byte is not checked. -/
def decodeXutf8 : List ℕ → Option ℕ
  | [] => none
  | ch :: p =>
    match xutf8Lead ch with
    | none => none
    | some (res, n) =>
      if p.length < n then none
      else some ((p.take n).foldl (fun res ch => (res * 64 + ch % 64) % 2 ^ 32) res)

/-- What `charCodeAt` answers at the characters of a string (duktape.c:60378–60423);
    a character begins at every byte that is no continuation byte. -/
def charCodes : List ℕ → List ℕ
  | [] => []
  | b :: p =>
    if IsContinuation b then charCodes p
    else (decodeXutf8 (b :: p)).getD 0xFFFD :: charCodes p

/-! ## The marshallers -/

/-- A string in script. -/
inductive ScriptString
  | quickJS (s : JSString)
  | duktape (bytes : List ℕ)
  deriving DecidableEq

/-- `QuickJSContext::toString(jstring)` (QuickJSContext.cpp:270–272) and
    `String::push` (JavaType.cpp:97–105). -/
def toScript (engine : Engine) (s : JString) : ScriptString :=
  match engine with
  | .quickJS => .quickJS (JS_NewString (getStringUTFChars s))
  | .duktape => .duktape (cString (getStringUTFChars s))

/-- `QuickJSContext::toString(JSValue)` (QuickJSContext.cpp:250–255) and
    `Object::pop` (JavaType.cpp:336–339). -/
def toJava : ScriptString → Option JString
  | .quickJS s => newStringUTF (JS_ToCString s)
  | .duktape bytes => newStringUTF bytes

/-- The code units that script sees. -/
def ScriptString.codeUnits : ScriptString → List ℕ
  | .quickJS s => s.units.map (·.toNat)
  | .duktape bytes => charCodes bytes

/-! ## The round trip -/

theorem decodeXutf8_encodeUnit (c : BitVec 16) (rest : List ℕ) :
    decodeXutf8 (encodeUnit c ++ rest) = some c.toNat := by
  have hlt : c.toNat < 65536 := c.isLt
  unfold encodeUnit
  split_ifs with h1 h2
  · have hl : xutf8Lead c.toNat = some (c.toNat, 0) := if_pos h1.2
    simp [decodeXutf8, hl]
  · have hl : xutf8Lead (0xC0 + c.toNat / 64) = some ((0xC0 + c.toNat / 64) % 0x20, 1) := by
      unfold xutf8Lead
      rw [if_neg (by omega), if_neg (by omega), if_pos (by omega)]
    simp only [decodeXutf8, List.cons_append, List.nil_append, hl, List.length_cons,
      List.take_succ_cons, List.take_zero, List.foldl_cons, List.foldl_nil]
    rw [if_neg (by omega), Option.some.injEq]
    omega
  · have hl : xutf8Lead (0xE0 + c.toNat / 4096) = some ((0xE0 + c.toNat / 4096) % 0x10, 2) := by
      unfold xutf8Lead
      rw [if_neg (by omega), if_neg (by omega), if_neg (by omega), if_pos (by omega)]
    simp only [decodeXutf8, List.cons_append, List.nil_append, hl, List.length_cons,
      List.take_succ_cons, List.take_zero, List.foldl_cons, List.foldl_nil]
    rw [if_neg (by omega), Option.some.injEq]
    omega

theorem charCodes_continuation {bs rest : List ℕ} (h : ∀ b ∈ bs, IsContinuation b) :
    charCodes (bs ++ rest) = charCodes rest := by
  induction bs with
  | nil => rfl
  | cons b bs ih =>
    rw [List.cons_append, charCodes, if_pos (h b List.mem_cons_self)]
    exact ih fun d hd => h d (List.mem_cons_of_mem _ hd)

/-- **Duktape shows script the code units of the Java string.** -/
theorem charCodes_encodeAll (s : JString) :
    charCodes (modifiedUtf8.encodeAll s) = s.map (·.toNat) := by
  induction s with
  | nil => rfl
  | cons c s ih =>
    obtain ⟨b, rest, hword, hb, hrest⟩ := head_encodeUnit c
    have hcode := decodeXutf8_encodeUnit c (modifiedUtf8.encodeAll s)
    rw [PrefixCode.encodeAll_cons, List.map_cons, ← ih]
    show charCodes (encodeUnit c ++ _) = _
    rw [hword, List.cons_append] at hcode ⊢
    rw [charCodes, if_neg hb, hcode, charCodes_continuation hrest]
    rfl

/-- The string survives: script sees its code units, and it comes back. -/
structure StringKept (engine : Engine) (s : JString) : Prop where
  seen : (toScript engine s).codeUnits = s.map (·.toNat)
  back : toJava (toScript engine s) = some s

theorem zero_not_mem_map_seen (s : JString) : 0#16 ∉ s.map seen := by
  intro h
  obtain ⟨c, -, hc⟩ := List.mem_map.mp h
  unfold seen at hc
  split_ifs at hc with h0
  · exact absurd hc (by decide)
  · exact h0 hc

theorem pairFree_map_seen {s : JString} : PairFree (s.map seen) ↔ PairFree s := by
  have hhigh : ∀ c, IsHighSurrogate (seen c) ↔ IsHighSurrogate c := by
    intro c
    unfold seen
    split_ifs with h
    · subst h
      decide
    · rfl
  have hlow : ∀ c, IsLowSurrogate (seen c) ↔ IsLowSurrogate c := by
    intro c
    unfold seen
    split_ifs with h
    · subst h
      decide
    · rfl
  unfold PairFree
  rw [List.isChain_map]
  simp only [hhigh, hlow]

/-- What QuickJS hands back. -/
theorem toJava_toScript_quickJS (s : JString) :
    toJava (toScript .quickJS s) = if PairFree s then some (s.map seen) else none := by
  show newStringUTF (JS_ToCString (JS_NewString (getStringUTFChars s))) = _
  rw [JS_NewString_getStringUTFChars, newStringUTF_JS_ToCString (zero_not_mem_map_seen s)]
  simp only [pairFree_map_seen]

/-- What Duktape hands back. -/
theorem toJava_toScript_duktape (s : JString) : toJava (toScript .duktape s) = some s := by
  show newStringUTF (cString (getStringUTFChars s)) = _
  rw [cString_getStringUTFChars, newStringUTF_getStringUTFChars]

theorem map_seen_eq_self_iff {s : JString} : s.map seen = s ↔ 0#16 ∉ s := by
  constructor
  · intro h
    rw [← h]
    exact zero_not_mem_map_seen s
  · intro h
    conv_rhs => rw [← List.map_id s]
    refine List.map_congr_left fun c hc => if_neg ?_
    rintro rfl
    exact h hc

/-- **Duktape keeps every string, QuickJS those without U+0000 and without
    surrogate pairs.** -/
theorem string_kept_iff (engine : Engine) (s : JString) :
    StringKept engine s ↔ (engine = .quickJS → 0#16 ∉ s ∧ PairFree s) := by
  cases engine with
  | duktape =>
    refine iff_of_true ⟨?_, toJava_toScript_duktape s⟩ (by simp)
    show charCodes (cString (getStringUTFChars s)) = _
    rw [cString_getStringUTFChars]
    exact charCodes_encodeAll s
  | quickJS =>
    have hseen : (toScript .quickJS s).codeUnits = (s.map seen).map (·.toNat) := by
      show (JS_NewString (getStringUTFChars s)).units.map _ = _
      rw [JS_NewString_getStringUTFChars]
      rfl
    constructor
    · rintro ⟨-, hback⟩ -
      rw [toJava_toScript_quickJS] at hback
      split_ifs at hback with hpair
      exact ⟨map_seen_eq_self_iff.mp (Option.some.inj hback), hpair⟩
    · intro h
      obtain ⟨h0, hpair⟩ := h rfl
      rw [← map_seen_eq_self_iff] at h0
      refine ⟨by rw [hseen, h0], ?_⟩
      rw [toJava_toScript_quickJS, if_pos hpair, h0]

/-- QuickJS changes U+0000, and gives the JNI four bytes for U+1F600. -/
theorem strings_lost :
    ¬StringKept .quickJS [0x61#16, 0#16] ∧ ¬StringKept .quickJS [0xD83D#16, 0xDE00#16] ∧
      toJava (toScript .quickJS [0x61#16, 0#16]) = some [0x61#16, 0xFFFD#16] ∧
      toJava (toScript .quickJS [0xD83D#16, 0xDE00#16]) = none :=
  have h1 : toJava (toScript .quickJS [0x61#16, 0#16]) = some [0x61#16, 0xFFFD#16] := by decide
  have h2 : toJava (toScript .quickJS [0xD83D#16, 0xDE00#16]) = none := by decide
  ⟨fun h => absurd (h1.symm.trans h.back) (by decide),
    fun h => absurd (h2.symm.trans h.back) (by decide), h1, h2⟩

end JSEngine.Scalars
