import Mathlib.Data.Nat.Digits.Lemmas
import JSEngine.Scalars.Defaults
import JSEngine.Atoms.Table

/-!
# Atoms of numbers

The canonical texts of the numbers below `2 ^ 31` have no entries in the table: their atoms are the
numbers themselves, with the highest bit set (quickjs.c:2357-2428, 2912-2994).

* `is_num_string_eq_some`: the strings that are read as numbers are the canonical texts of the
  numbers of 32 bits.
-/

namespace JSEngine.Atoms

open JSEngine.Java (JString)
open JSEngine.Scalars (JSString decimal readDigits readDigits_digits)

/-- `is_num` (lines 2388-2391). -/
def is_num (c : BitVec 16) : Bool := 0x30 ≤ c.toNat ∧ c.toNat ≤ 0x39

/-- The loop of `is_num_string` (lines 2412-2422). -/
def numLoop : ℕ → JString → Option ℕ
  | n, [] => some n
  | n, c :: rest =>
    if is_num c = false then none
    else
      let n64 := n * 10 + (c.toNat - 0x30)
      if n64 >>> 32 ≠ 0 then none else numLoop n64 rest

/-- `is_num_string` (lines 2393-2428). -/
def is_num_string (p : JSString) : Option ℕ :=
  match p.units with
  | [] => none
  | c :: rest =>
    if 10 < p.units.length then none
    else if is_num c then
      if c = 0x30#16 then if p.units.length ≠ 1 then none else some 0
      else numLoop (c.toNat - 0x30) rest
    else none

/-- `JS_ATOM_MAX_INT`. -/
def JS_ATOM_MAX_INT : ℕ := 2 ^ 31 - 1

/-- `__JS_AtomFromUInt32`. -/
def atomFromUInt32 (v : ℕ) : ℕ := v ||| 2 ^ 31

namespace JSRuntime

/-- `JS_NewAtomStr2` (lines 2912-2925). -/
def JS_NewAtomStr2 (JS_ATOM_END : ℕ) (rt : JSRuntime) (p : Source) (type : AtomType) (m : Memory) :
    Option (JSRuntime × ℕ) :=
  match rt.text p with
  | none => none
  | some str =>
    match is_num_string str with
    | none => rt.newAtom JS_ATOM_END p type m
    | some n =>
      if n ≤ JS_ATOM_MAX_INT then (rt.js_free_string p).map fun rt => (rt, atomFromUInt32 n)
      else rt.newAtom JS_ATOM_END p type m

/-- `JS_NewAtomStr` (lines 2927-2930). -/
def JS_NewAtomStr (JS_ATOM_END : ℕ) (rt : JSRuntime) (p : Source) (m : Memory) :
    Option (JSRuntime × ℕ) := rt.JS_NewAtomStr2 JS_ATOM_END p .STRING m

end JSRuntime

theorem atomFromUInt32_eq {n : ℕ} (hn : n < 2 ^ 31) : atomFromUInt32 n = 2 ^ 31 + n := by
  have hor := Nat.two_pow_add_eq_or_of_lt hn 1
  rw [Nat.mul_one] at hor
  rw [atomFromUInt32, Nat.or_comm, ← hor]

theorem is_num_iff {c : BitVec 16} : is_num c = true ↔ 0x30 ≤ c.toNat ∧ c.toNat < 0x3A := by
  rw [is_num, decide_eq_true_iff, Nat.lt_succ_iff]

/-- The loop reads digits whose value has 32 bits. -/
theorem numLoop_eq_some {n m : ℕ} {rest : JString} : numLoop n rest = some m ↔
    (∀ c ∈ rest, is_num c = true) ∧
      rest.foldl (fun n c => 10 * n + (c.toNat - 0x30)) n = m ∧ (rest ≠ [] → m < 2 ^ 32) := by
  induction rest generalizing n with
  | nil => simp [numLoop]
  | cons c rest ih =>
    rw [numLoop]
    have hle : ∀ (rest : JString) (k : ℕ),
        k ≤ rest.foldl (fun n c => 10 * n + (c.toNat - 0x30)) k := by
      intro rest
      induction rest with
      | nil => exact fun k => le_rfl
      | cons c rest ih =>
        intro k
        exact le_trans (by omega) (ih (10 * k + (c.toNat - 0x30)))
    simp only [List.forall_mem_cons, List.foldl_cons, ne_eq, reduceCtorEq, not_false_eq_true,
      true_imp_iff, Nat.shiftRight_eq_div_pow]
    cases hc : is_num c with
    | false => simp
    | true =>
      rw [if_neg (by simp), Nat.mul_comm n 10]
      by_cases hbig : 10 * n + (c.toNat - 0x30) < 2 ^ 32
      · rw [if_neg (by simp; omega), ih]
        constructor
        · rintro ⟨hrest, hm, hlt⟩
          refine ⟨⟨rfl, hrest⟩, hm, ?_⟩
          by_cases hnil : rest = []
          · subst hnil
            exact hm ▸ hbig
          · exact hlt hnil
        · rintro ⟨⟨-, hrest⟩, hm, hlt⟩
          exact ⟨hrest, hm, fun _ => hlt⟩
      · rw [if_pos (by simp; omega)]
        simp only [reduceCtorEq, false_iff, not_and]
        intro _ hm hlt
        have := hle rest (10 * n + (c.toNat - 0x30))
        omega

/-- Digits without a zero in front are the canonical text of their value. -/
theorem decimal_foldl {c : BitVec 16} {rest : JString} (hdigits : ∀ d ∈ c :: rest, is_num d = true)
    (hc : c ≠ 0x30#16) :
    decimal ((c :: rest).foldl (fun n c => 10 * n + (c.toNat - 0x30)) 0 : ℕ) = c :: rest := by
  generalize hL : ((c :: rest).map fun d => d.toNat - 0x30).reverse = L
  have hvalue : (c :: rest).foldl (fun n c => 10 * n + (c.toNat - 0x30)) 0 = Nat.ofDigits 10 L := by
    rw [← hL, Nat.ofDigits_eq_foldr, List.foldr_reverse, List.foldl_map]
    simp only [Nat.cast_id, Nat.add_comm]
  have hpos : c.toNat - 0x30 ≠ 0 := by
    have hrange := is_num_iff.mp (hdigits c (List.mem_cons_self ..))
    have hne : c.toNat ≠ 0x30 := fun h => hc (BitVec.eq_of_toNat_eq h)
    omega
  have hlast : L.getLast? = some (c.toNat - 0x30) := by
    rw [← hL, List.getLast?_reverse]
    rfl
  have hdigits' : Nat.digits 10 (Nat.ofDigits 10 L) = L := by
    refine Nat.digits_ofDigits 10 (by decide) L (fun d hd => ?_) fun hne => ?_
    · rw [← hL] at hd
      obtain ⟨d', hd', rfl⟩ := List.mem_map.mp (List.mem_reverse.mp hd)
      have := is_num_iff.mp (hdigits d' hd')
      omega
    · rw [List.getLast?_eq_some_getLast hne] at hlast
      rw [Option.some.inj hlast]
      exact hpos
  have hne : Nat.ofDigits 10 L ≠ 0 := by
    intro h0
    rw [h0, Nat.digits_zero] at hdigits'
    rw [← hdigits'] at hlast
    cases hlast
  rw [hvalue, decimal, if_neg (by omega), if_neg (by exact_mod_cast hne), List.nil_append,
    Int.natAbs_natCast, hdigits', ← hL, List.reverse_reverse, List.map_map]
  refine (List.map_congr_left fun d hd => ?_).trans (List.map_id _)
  have := is_num_iff.mp (hdigits d hd)
  refine BitVec.eq_of_toNat_eq ?_
  rw [Function.comp_apply, BitVec.toNat_ofNat, id]
  have := d.isLt
  omega

/-- The canonical text of a number that is not zero. -/
theorem exists_decimal {n : ℕ} (hn : n ≠ 0) : ∃ c rest, decimal n = c :: rest ∧ c ≠ 0x30#16 ∧
    (∀ d ∈ c :: rest, is_num d = true) ∧
    (c :: rest).foldl (fun n c => 10 * n + (c.toNat - 0x30)) 0 = n ∧
    (n < 2 ^ 32 → (c :: rest).length ≤ 10) := by
  have hdecimal : decimal n =
      (Nat.digits 10 n).reverse.map fun d => BitVec.ofNat 16 (0x30 + d) := by
    rw [decimal, if_neg (by omega), if_neg (by exact_mod_cast hn), Int.natAbs_natCast]
    rfl
  have hread := readDigits_digits hn
  rw [← hdecimal, readDigits] at hread
  split_ifs at hread with hdigits
  have hne : Nat.digits 10 n ≠ [] := Nat.digits_ne_nil_iff_ne_zero.mpr hn
  have hlast := Nat.getLast_digit_ne_zero 10 hn
  have hlt := Nat.digits_lt_base (by decide) (List.getLast_mem hne)
  obtain ⟨ds, hds⟩ : ∃ ds, Nat.digits 10 n = ds ++ [(Nat.digits 10 n).getLast hne] :=
    ⟨_, (List.dropLast_append_getLast hne).symm⟩
  generalize (Nat.digits 10 n).getLast hne = d at hlast hlt hds
  have hcons : decimal n = BitVec.ofNat 16 (0x30 + d) ::
      ds.reverse.map fun d => BitVec.ofNat 16 (0x30 + d) := by
    rw [hdecimal, hds, List.reverse_append]
    rfl
  rw [hcons] at hread hdigits
  refine ⟨_, _, hcons, fun h0 => ?_, fun d hd => is_num_iff.mpr (hdigits.2 d hd),
    Option.some.inj hread, fun hsize => ?_⟩
  · have h0 := congrArg BitVec.toNat h0
    rw [BitVec.toNat_ofNat, BitVec.toNat_ofNat] at h0
    omega
  · rw [← hcons, hdecimal, List.length_map, List.length_reverse]
    exact (Nat.digits_length_le_iff (by decide) n).mpr (by omega)

/-- **The strings that are read as numbers.** -/
theorem is_num_string_eq_some {p : JSString} {n : ℕ} :
    is_num_string p = some n ↔ p.units = decimal n ∧ n < 2 ^ 32 := by
  constructor
  · intro h
    rw [is_num_string] at h
    cases hunits : p.units with
    | nil => simp [hunits] at h
    | cons c rest =>
      rw [hunits] at h
      simp only at h
      split_ifs at h with hlength hc h0 hone
      · obtain rfl := Option.some.inj h
        obtain rfl : rest = [] := by simpa using hone
        exact ⟨by rw [h0]; rfl, by decide⟩
      · obtain ⟨hrest, hvalue, hsize⟩ := numLoop_eq_some.mp h
        have hdecimal := decimal_foldl (List.forall_mem_cons.mpr ⟨hc, hrest⟩) h0
        rw [List.foldl_cons, Nat.mul_zero, Nat.zero_add, hvalue] at hdecimal
        refine ⟨hdecimal.symm, ?_⟩
        by_cases hnil : rest = []
        · subst hnil
          have := is_num_iff.mp hc
          rw [← hvalue]
          show c.toNat - 0x30 < _
          omega
        · exact hsize hnil
  · rintro ⟨hunits, hsize⟩
    by_cases hn : n = 0
    · subst hn
      rw [is_num_string, hunits]
      rfl
    · obtain ⟨c, rest, hcons, h0, hdigits, hvalue, hlength⟩ := exists_decimal hn
      obtain ⟨hc, hrest⟩ := List.forall_mem_cons.mp hdigits
      have hlength := hlength hsize
      rw [is_num_string, hunits, hcons]
      simp only
      rw [if_neg (by omega), if_pos hc, if_neg h0]
      refine numLoop_eq_some.mpr ⟨hrest, ?_, fun _ => hsize⟩
      rw [← hvalue, List.foldl_cons, Nat.mul_zero, Nat.zero_add]

end JSEngine.Atoms
