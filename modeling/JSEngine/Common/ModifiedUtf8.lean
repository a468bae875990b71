import JSEngine.Common.PrefixCode
import Mathlib.Tactic

/-!
# Modified UTF-8

The encoding of UTF-16 code units that the JNI uses for C strings. Every code
unit is encoded by itself, so a surrogate pair takes two words of three bytes;
U+0000 takes two bytes, so no byte is zero.

* `modifiedUtf8`: the code; `decodeAll` is its inverse on well-formed texts.
* `bounds_of_mem_encodeAll`: the bytes that occur.
-/

namespace JSEngine.Common

/-- A continuation byte, `10xxxxxx`. -/
def IsContinuation (b : ℕ) : Prop := 0x80 ≤ b ∧ b < 0xC0

instance : DecidablePred IsContinuation := fun _ => inferInstanceAs (Decidable (_ ∧ _))

/-- The word of a code unit. -/
def encodeUnit (c : BitVec 16) : List ℕ :=
  if 1 ≤ c.toNat ∧ c.toNat < 0x80 then [c.toNat]
  else if c.toNat < 0x800 then [0xC0 + c.toNat / 64, 0x80 + c.toNat % 64]
  else [0xE0 + c.toNat / 4096, 0x80 + c.toNat / 64 % 64, 0x80 + c.toNat % 64]

/-- The code unit that the first bytes are the word of, and the bytes behind it. -/
def readUnit : List ℕ → Option (BitVec 16 × List ℕ)
  | [] => none
  | a :: rest =>
    if 1 ≤ a ∧ a < 0x80 then some (BitVec.ofNat 16 a, rest)
    else
      match rest with
      | [] => none
      | b :: rest =>
        if (a = 0xC0 ∧ b = 0x80) ∨ (0xC2 ≤ a ∧ a < 0xE0 ∧ IsContinuation b) then
          some (BitVec.ofNat 16 (a % 32 * 64 + b % 64), rest)
        else
          match rest with
          | [] => none
          | c :: rest =>
            if 0xE0 ≤ a ∧ a < 0xF0 ∧ IsContinuation b ∧ IsContinuation c ∧
                (a = 0xE0 → 0xA0 ≤ b) then
              some (BitVec.ofNat 16 (a % 16 * 4096 + b % 64 * 64 + c % 64), rest)
            else none

theorem readUnit_encodeUnit (c : BitVec 16) (rest : List ℕ) :
    readUnit (encodeUnit c ++ rest) = some (c, rest) := by
  have hc : c.toNat < 65536 := c.isLt
  have heq : ∀ {n : ℕ}, n = c.toNat → BitVec.ofNat 16 n = c := by
    rintro n rfl
    rw [BitVec.ofNat_toNat, BitVec.setWidth_eq]
  unfold encodeUnit
  split_ifs with h1 h2
  · simp [readUnit, h1]
  · have hlead : ¬(1 ≤ 0xC0 + c.toNat / 64 ∧ 0xC0 + c.toNat / 64 < 0x80) := by omega
    have hword : (0xC0 + c.toNat / 64 = 0xC0 ∧ 0x80 + c.toNat % 64 = 0x80) ∨
        (0xC2 ≤ 0xC0 + c.toNat / 64 ∧ 0xC0 + c.toNat / 64 < 0xE0 ∧
          IsContinuation (0x80 + c.toNat % 64)) := by
      unfold IsContinuation
      omega
    simp only [List.cons_append, List.nil_append, readUnit, if_neg hlead, if_pos hword]
    rw [heq (by omega)]
  · have hlead : ¬(1 ≤ 0xE0 + c.toNat / 4096 ∧ 0xE0 + c.toNat / 4096 < 0x80) := by omega
    have htwo : ¬((0xE0 + c.toNat / 4096 = 0xC0 ∧ 0x80 + c.toNat / 64 % 64 = 0x80) ∨
        (0xC2 ≤ 0xE0 + c.toNat / 4096 ∧ 0xE0 + c.toNat / 4096 < 0xE0 ∧
          IsContinuation (0x80 + c.toNat / 64 % 64))) := by omega
    have hthree : 0xE0 ≤ 0xE0 + c.toNat / 4096 ∧ 0xE0 + c.toNat / 4096 < 0xF0 ∧
        IsContinuation (0x80 + c.toNat / 64 % 64) ∧ IsContinuation (0x80 + c.toNat % 64) ∧
        (0xE0 + c.toNat / 4096 = 0xE0 → 0xA0 ≤ 0x80 + c.toNat / 64 % 64) := by
      unfold IsContinuation
      omega
    simp only [List.cons_append, List.nil_append, readUnit, if_neg hlead, if_neg htwo,
      if_pos hthree]
    rw [heq (by omega)]

theorem eq_of_readUnit {text rest : List ℕ} {c : BitVec 16}
    (h : readUnit text = some (c, rest)) : text = encodeUnit c ++ rest := by
  cases text with
  | nil => simp [readUnit] at h
  | cons a text =>
    simp only [readUnit] at h
    split_ifs at h with h1
    · simp only [Option.some.injEq, Prod.mk.injEq] at h
      obtain ⟨rfl, rfl⟩ := h
      have hn : (BitVec.ofNat 16 a).toNat = a := by rw [BitVec.toNat_ofNat]; omega
      rw [encodeUnit, hn, if_pos h1]
      rfl
    · cases text with
      | nil => simp at h
      | cons b text =>
        dsimp only at h
        split_ifs at h with h2
        · simp only [Option.some.injEq, Prod.mk.injEq] at h
          obtain ⟨rfl, rfl⟩ := h
          unfold IsContinuation at h2
          have hn : (BitVec.ofNat 16 (a % 32 * 64 + b % 64)).toNat = a % 32 * 64 + b % 64 := by
            rw [BitVec.toNat_ofNat]; omega
          rw [encodeUnit, hn, if_neg (by omega), if_pos (by omega)]
          have ha : a = 0xC0 + (a % 32 * 64 + b % 64) / 64 := by omega
          have hb : b = 0x80 + (a % 32 * 64 + b % 64) % 64 := by omega
          rw [← ha, ← hb]
          rfl
        · cases text with
          | nil => simp at h
          | cons d text =>
            dsimp only at h
            split_ifs at h with h3
            simp only [Option.some.injEq, Prod.mk.injEq] at h
            obtain ⟨rfl, rfl⟩ := h
            unfold IsContinuation at h3
            have hn : (BitVec.ofNat 16 (a % 16 * 4096 + b % 64 * 64 + d % 64)).toNat =
                a % 16 * 4096 + b % 64 * 64 + d % 64 := by
              rw [BitVec.toNat_ofNat]; omega
            rw [encodeUnit, hn, if_neg (by omega), if_neg (by omega)]
            have ha : a = 0xE0 + (a % 16 * 4096 + b % 64 * 64 + d % 64) / 4096 := by omega
            have hb : b = 0x80 + (a % 16 * 4096 + b % 64 * 64 + d % 64) / 64 % 64 := by omega
            have hd : d = 0x80 + (a % 16 * 4096 + b % 64 * 64 + d % 64) % 64 := by omega
            rw [← ha, ← hb, ← hd]
            rfl

/-- The modified UTF-8 of code units. -/
def modifiedUtf8 : PrefixCode (BitVec 16) ℕ where
  encode := encodeUnit
  read := readUnit
  encode_ne_nil c := by unfold encodeUnit; split_ifs <;> simp
  read_eq_some_iff text c rest := by
    constructor
    · exact eq_of_readUnit
    · rintro rfl
      exact readUnit_encodeUnit c rest

/-- A code unit takes no zero byte, and no byte that leads four or more. -/
theorem bounds_of_mem_encodeUnit {c : BitVec 16} {b : ℕ} (h : b ∈ encodeUnit c) :
    b ≠ 0 ∧ b < 0xF0 := by
  have hc : c.toNat < 65536 := c.isLt
  unfold encodeUnit at h
  split_ifs at h with h1 h2 <;>
    · simp only [List.mem_cons, List.not_mem_nil, or_false] at h
      omega

theorem bounds_of_mem_encodeAll {s : List (BitVec 16)} {b : ℕ} (h : b ∈ modifiedUtf8.encodeAll s) :
    b ≠ 0 ∧ b < 0xF0 := by
  obtain ⟨c, -, hb⟩ := List.mem_flatMap.mp h
  exact bounds_of_mem_encodeUnit hb

/-- A word begins with a byte that is no continuation. -/
theorem head_encodeUnit (c : BitVec 16) :
    ∃ b rest, encodeUnit c = b :: rest ∧ ¬IsContinuation b ∧ ∀ d ∈ rest, IsContinuation d := by
  have hc : c.toNat < 65536 := c.isLt
  unfold encodeUnit IsContinuation
  split_ifs with h1 h2
  · exact ⟨_, _, rfl, by omega, by simp⟩
  · refine ⟨_, _, rfl, by omega, ?_⟩
    simp only [List.mem_singleton, forall_eq]
    omega
  · refine ⟨_, _, rfl, by omega, ?_⟩
    simp only [List.mem_cons, List.not_mem_nil, or_false, forall_eq_or_imp, forall_eq]
    omega

end JSEngine.Common
