import JSEngine.Atoms.Counting
import JSEngine.Atoms.Numbers

/-!
# Atoms of C strings

`JS_NewAtomLen` and `JS_NewAtomLenPrivate` first look for a string atom with the bytes of the C
string (quickjs.c:2833-2857 and 2932-2955). They take these for the characters of a string of 8
bits, and do not ask for its type.

* `latin1_eq_iff`: a C string is made of the characters of its bytes only if it is ASCII;
* `Counted.JS_NewAtomLen`: when the atom has the text of the C string;
* `Counted.JS_NewAtomLenPrivate`: when it is a new private symbol.
-/

namespace JSEngine.Atoms

open JSEngine.Common JSEngine.Common.Chains
open JSEngine.Java (JString jstr)
open JSEngine.Scalars

/-! ## Decoding -/

/-- The string of 8 bits with these bytes. -/
def latin1 (buf : List ℕ) : JString := buf.map (BitVec.ofNat 16)

/-- What follows the first byte of a character. -/
theorem readContinuation_spec {l c code : ℕ} {p next : List ℕ}
    (h : readContinuation l c p = some (code, next)) :
    next.length + l = p.length ∧ code < (c + 1) * 64 ^ l := by
  induction l generalizing c p with
  | zero =>
    obtain ⟨rfl, rfl⟩ := Prod.mk.inj (Option.some.inj h)
    exact ⟨rfl, by omega⟩
  | succ l ih =>
    cases p with
    | nil => cases h
    | cons b p =>
      rw [readContinuation] at h
      split_ifs at h with hb
      obtain ⟨hlength, hcode⟩ := ih h
      refine ⟨by rw [List.length_cons, ← hlength]; omega, hcode.trans_le ?_⟩
      rw [pow_succ, mul_comm (64 ^ l), ← mul_assoc]
      exact Nat.mul_le_mul_right _ (by omega)

theorem length_skipInvalid (b : ℕ) (rest : List ℕ) :
    (skipInvalid (b :: rest)).length ≤ rest.length := by
  have hle := (List.dropWhile_sublist (l := b :: rest) (IsContinuation ·)).length_le
  rw [skipInvalid]
  split
  · exact Nat.zero_le _
  · rename_i hdrop
    rw [hdrop] at hle
    exact (List.dropWhile_sublist _).length_le.trans (Nat.le_of_succ_le_succ hle)

/-- A character of several bytes. -/
theorem unicodeFromUtf8_spec {b c : ℕ} {rest next : List ℕ} (hb : ¬b < 128)
    (h : unicodeFromUtf8 (b :: rest) = some (c, next)) :
    next.length + 1 ≤ rest.length ∧ (0x10000 ≤ c → next.length + 2 ≤ rest.length) := by
  rw [unicodeFromUtf8, if_neg hb] at h
  cases hl : sequenceLength b with
  | none =>
    rw [hl] at h
    cases h
  | some l =>
    rw [hl] at h
    simp only at h
    split_ifs at h
    cases hread : readContinuation l (b % firstCodeSize l) rest with
    | none =>
      rw [hread] at h
      cases h
    | some r =>
      obtain ⟨code, p⟩ := r
      rw [hread] at h
      simp only at h
      split_ifs at h
      obtain ⟨rfl, rfl⟩ := Prod.mk.inj (Option.some.inj h)
      obtain ⟨hlength, hcode⟩ := readContinuation_spec hread
      have hpos : 1 ≤ l := by
        rw [sequenceLength] at hl
        split_ifs at hl <;> cases hl <;> decide
      refine ⟨by omega, fun hlarge => ?_⟩
      -- two bytes hold a code below 0x800 only
      by_contra hlt
      obtain rfl : l = 1 := by omega
      have hmod : b % firstCodeSize 1 < 0x20 := Nat.mod_lt _ (by decide)
      omega

/-- A character of several bytes has fewer code units, or it is not valid. -/
theorem putNext_spec {b : ℕ} (rest : List ℕ) (hb : ¬b < 128) :
    (∃ p, putNext (b :: rest) = ([0xFFFD#16], p) ∧ p.length ≤ rest.length) ∨
      (putNext (b :: rest)).1.length + (putNext (b :: rest)).2.length ≤ rest.length := by
  cases hcode : unicodeFromUtf8 (b :: rest) with
  | none => exact .inl ⟨_, putNext_invalid rfl hb hcode, length_skipInvalid b rest⟩
  | some r =>
    obtain ⟨c, next⟩ := r
    obtain ⟨hone, htwo⟩ := unicodeFromUtf8_spec hb hcode
    simp only [putNext, if_neg hb, hcode]
    split_ifs with hsmall hrange
    · refine .inr ?_
      show 1 + next.length ≤ rest.length
      omega
    · refine .inr ?_
      have := htwo (by omega)
      show 2 + next.length ≤ rest.length
      omega
    · exact .inl ⟨_, rfl, length_skipInvalid b rest⟩

/-- There are not more code units than bytes. -/
theorem length_putLoop (n : ℕ) (p : List ℕ) : (putLoop n p).length ≤ p.length := by
  induction n generalizing p with
  | zero => exact Nat.zero_le _
  | succ n ih =>
    cases p with
    | nil => exact le_rfl
    | cons b rest =>
      rw [putLoop, List.length_append, List.length_cons]
      have hrest := ih (putNext (b :: rest)).2
      by_cases hb : b < 128
      · rw [putNext_ascii hb] at hrest ⊢
        show 1 + (putLoop n rest).length ≤ rest.length + 1
        simp only at hrest
        omega
      · obtain ⟨p, hp, hlength⟩ | hlength := putNext_spec rest hb
        · rw [hp] at hrest ⊢
          show 1 + (putLoop n p).length ≤ rest.length + 1
          simp only at hrest
          omega
        · omega

/-- **The characters of the bytes are those of the C string only if it is ASCII.** -/
theorem latin1_eq_iff {buf : List ℕ} (hbytes : ∀ b ∈ buf, b < 256) :
    (JS_NewStringLen buf).units = latin1 buf ↔ ∀ b ∈ buf, b < 128 := by
  have hunits : (JS_NewStringLen buf).units = latin1 (buf.takeWhile (· < 128)) ++
      putLoop buf.length (buf.dropWhile (· < 128)) := rfl
  have hsplit := List.takeWhile_append_dropWhile (p := fun b => decide (b < 128)) (l := buf)
  rw [hunits]
  cases hdrop : buf.dropWhile (· < 128) with
  | nil =>
    rw [hdrop, List.append_nil] at hsplit
    refine iff_of_true ?_ fun b hb => ?_
    · have hnil : putLoop buf.length [] = [] := by cases buf.length <;> rfl
      rw [hnil, List.append_nil, hsplit]
    · rw [← hsplit] at hb
      simpa using List.mem_takeWhile_imp hb
  | cons b rest =>
    have hb : ¬b < 128 := by
      have := List.head?_dropWhile_not (fun b => decide (b < 128)) buf
      rw [hdrop] at this
      simpa using this
    rw [hdrop] at hsplit
    have hmem : b ∈ buf := hsplit ▸ List.mem_append_right _ (List.mem_cons_self ..)
    refine iff_of_false (fun heq => ?_) fun hall => hb (hall b hmem)
    have hlatin : latin1 buf = latin1 (buf.takeWhile (· < 128)) ++ latin1 (b :: rest) := by
      rw [latin1, latin1, latin1, ← List.map_append, hsplit]
    rw [hlatin] at heq
    have heq := List.append_cancel_left heq
    obtain ⟨n, hn⟩ := Nat.exists_eq_succ_of_ne_zero (List.length_pos_of_mem hmem).ne'
    rw [hn, putLoop] at heq
    obtain ⟨p, hp, -⟩ | hlength := putNext_spec rest hb
    · rw [hp] at heq
      have hhead := congrArg BitVec.toNat (List.cons.inj heq).1
      have hlt := hbytes b hmem
      rw [BitVec.toNat_ofNat, BitVec.toNat_ofNat] at hhead
      omega
    · have hcount := congrArg List.length heq
      have hrest := length_putLoop n (putNext (b :: rest)).2
      rw [List.length_append, latin1, List.length_map, List.length_cons] at hcount
      omega

/-! ## Looking up bytes -/

namespace JSRuntime

/-- `hash_string8` (lines 2433-2441). -/
def hash_string8 (str : List ℕ) (h : UInt32) : UInt32 :=
  str.foldl (fun h c => h * 263 + UInt32.ofNat c) h

/-- The entry is a string of 8 bits with these bytes (lines 2846-2850). -/
def hasBytes (rt : JSRuntime) (h : UInt32) (str : List ℕ) (i : ℕ) : Bool :=
  match rt.get i with
  | none => false
  | some p =>
    p.hash = h && p.atom_type = .STRING && p.str.isWide = false && p.str.units = latin1 str

/-- `__JS_FindAtom` (lines 2833-2857); the type asked for is not used. -/
def FindAtom (JS_ATOM_END : ℕ) (rt : JSRuntime) (str : List ℕ) : Option (JSRuntime × ℕ) :=
  let h := hash_string8 str AtomType.STRING.value &&& 0x3FFFFFFF
  match seek rt.links.next (rt.hasBytes h str) rt.atom_size
      (rt.atom_hash (bucketOf rt.atom_hash_size h)) with
  | none => none
  | some 0 => some (rt, 0)
  | some (i + 1) => (rt.JS_DupAtom JS_ATOM_END (i + 1)).map fun rt => (rt, i + 1)

/-- `is_digit`. -/
def is_digit (c : ℕ) : Bool := 0x30 ≤ c ∧ c ≤ 0x39

/-- The string is made first (lines 2941-2944). -/
def newAtomOfString (JS_ATOM_END : ℕ) (rt : JSRuntime) (str : List ℕ) (type : AtomType)
    (string : Bool) (m : Memory) : Option (JSRuntime × ℕ) :=
  if string then rt.JS_NewAtomStr2 JS_ATOM_END (.string (JS_NewStringLen str) 1) type m
  else some (rt, 0)

/-- `JS_NewAtomLen2` (lines 2932-2945), for `JS_NewAtomLen` and `JS_NewAtomLenPrivate` (lines
    2947-2955). -/
def JS_NewAtomLen2 (JS_ATOM_END : ℕ) (rt : JSRuntime) (str : List ℕ) (type : AtomType)
    (string : Bool) (m : Memory) : Option (JSRuntime × ℕ) :=
  if str.head?.any is_digit then rt.newAtomOfString JS_ATOM_END str type string m
  else
    match rt.FindAtom JS_ATOM_END str with
    | none => none
    | some (rt, 0) => rt.newAtomOfString JS_ATOM_END str type string m
    | some (rt, v + 1) => some (rt, v + 1)

/-- The text of an atom, as `JS_AtomGetStr` and `JS_AtomToString` give it (lines 3026-3076 and
    3079-3117). -/
def atomString (rt : JSRuntime) (atom : ℕ) : Option JString :=
  if 2 ^ 31 ≤ atom then some (decimal ((atom - 2 ^ 31 : ℕ) : ℤ)) else (rt.label atom).map Prod.fst

/-- There is a string atom of 8 bits with these bytes. -/
def HasBytes (rt : JSRuntime) (str : List ℕ) : Prop :=
  ∃ i p, rt.get i = some p ∧ p.atom_type = .STRING ∧ p.str.isWide = false ∧
    p.str.units = latin1 str

end JSRuntime

/-- The hash of the bytes is that of the characters. -/
theorem hash_string8_eq {str : List ℕ} (hbytes : ∀ b ∈ str, b < 256) {p : JSString}
    (hp : p.units = latin1 str) (h : UInt32) : JSRuntime.hash_string8 str h = hash_string p h := by
  rw [hash_string, hp, latin1, List.foldl_map, JSRuntime.hash_string8]
  refine List.foldl_ext _ _ _ fun h b hb => ?_
  have := hbytes b hb
  rw [BitVec.toNat_ofNat, Nat.mod_eq_of_lt (by omega)]

section
variable {rt : JSRuntime} {n : ℕ → ℕ} {JS_ATOM_END : ℕ} {str : List ℕ}

/-- The atom that is found has these bytes. -/
theorem Counted.FindAtom (h : Counted rt n) (JS_ATOM_END : ℕ) (hbytes : ∀ b ∈ str, b < 256) :
    (¬rt.HasBytes str ∧ rt.FindAtom JS_ATOM_END str = some (rt, 0)) ∨
      rt.HasBytes str ∧ ∃ rt' v, rt.FindAtom JS_ATOM_END str = some (rt', v + 1) ∧
        Counted rt' (Function.update n (v + 1)
          (n (v + 1) + if isConst JS_ATOM_END (v + 1) then 0 else 1)) ∧
        rt'.label = rt.label ∧ rt.label (v + 1) = some (latin1 str, .STRING) := by
  generalize hh : JSRuntime.hash_string8 str AtomType.STRING.value &&& 0x3FFFFFFF = hash
  have hhash : ∀ p : JSString, p.units = latin1 str → hashOf p .STRING = hash := fun p hp => by
    rw [hashOf, ← hash_string8_eq hbytes hp, hh]
  obtain ⟨r, hr, hfound, hnone⟩ := h.table.links.seek (bucketOf_lt h.table.size_pos hash)
    (rt.hasBytes hash str) h.table.hashed_bound
  change seek rt.links.next (rt.hasBytes hash str) rt.atom_size
    (rt.atom_hash (bucketOf rt.atom_hash_size hash)) = some r at hr
  rw [JSRuntime.FindAtom, hh]
  simp only [hr]
  cases r with
  | zero =>
    refine .inl ⟨?_, rfl⟩
    rintro ⟨i, p, hp, htype, hwide, hunits⟩
    have hphash := h.table.hash i p hp (by rw [htype]; decide)
    rw [htype, hhash p.str hunits] at hphash
    have := hnone rfl i ⟨p, hp, by rw [htype]; decide⟩ (by rw [bucket_of_get hp, hphash])
    rw [JSRuntime.hasBytes, hp] at this
    simp [hphash, htype, hwide, hunits] at this
  | succ r =>
    obtain ⟨⟨p, hp, -⟩, -, his⟩ := hfound (Nat.succ_ne_zero r)
    rw [JSRuntime.hasBytes, hp] at his
    simp only [Bool.and_eq_true, decide_eq_true_eq] at his
    obtain ⟨⟨⟨-, htype⟩, hwide⟩, hunits⟩ := his
    have hlabel := Counted.label_of_get (Nat.succ_ne_zero r) hp
    obtain ⟨rt', hrt', hcounted, hlabel'⟩ := h.JS_DupAtom JS_ATOM_END (h.ne_zero_of_label hlabel)
    refine .inr ⟨⟨_, p, hp, htype, hwide, hunits⟩, rt', r, ?_, hcounted, hlabel', ?_⟩
    · show (rt.JS_DupAtom JS_ATOM_END (r + 1)).map _ = _
      rw [hrt']
      rfl
    · rw [hlabel, hunits, htype]

/-- The atom of a string that has been made for it. -/
theorem Counted.newAtomOfString (h : Counted rt n) (JS_ATOM_END : ℕ) (str : List ℕ)
    (type : AtomType) (string : Bool) (m : Memory) :
    ∃ rt' v, rt.newAtomOfString JS_ATOM_END str type string m = some (rt', v) ∧
      (v = 0 ∨
        (∃ k < 2 ^ 31, (JS_NewStringLen str).units = decimal (k : ℕ) ∧ v = atomFromUInt32 k ∧
          rt' = rt) ∨
        (∀ k : ℕ, k < 2 ^ 31 → (JS_NewStringLen str).units ≠ decimal k) ∧ v ≠ 0 ∧ v < 2 ^ 30 ∧
          rt'.label v = some ((JS_NewStringLen str).units, type.stored) ∧
          (type.stored = .SYMBOL → rt.label v = none)) := by
  rw [JSRuntime.newAtomOfString]
  cases string with
  | false => exact ⟨rt, 0, rfl, .inl rfl⟩
  | true =>
    have hnew : (∀ k : ℕ, k < 2 ^ 31 → (JS_NewStringLen str).units ≠ decimal k) →
        ∃ rt' v, rt.newAtom JS_ATOM_END (.string (JS_NewStringLen str) 1) type m =
          some (rt', v) ∧ (v = 0 ∨
            (∃ k < 2 ^ 31, (JS_NewStringLen str).units = decimal (k : ℕ) ∧
              v = atomFromUInt32 k ∧ rt' = rt) ∨
            (∀ k : ℕ, k < 2 ^ 31 → (JS_NewStringLen str).units ≠ decimal k) ∧ v ≠ 0 ∧ v < 2 ^ 30 ∧
              rt'.label v = some ((JS_NewStringLen str).units, type.stored) ∧
              (type.stored = .SYMBOL → rt.label v = none)) := by
      intro hnumber
      have hheld : (Source.string (JS_NewStringLen str) 1).Held n := one_ne_zero
      obtain ⟨rt', v, hrt', -, ⟨hv, -⟩ | ⟨hv, hlt, -, hlabel, hsymbol⟩⟩ : Given JS_ATOM_END _ _ _ _ _ :=
        h.newAtom hheld (fun i hi => by cases hi) rfl type m
      · exact ⟨rt', v, hrt', .inl hv⟩
      · refine ⟨rt', v, hrt', .inr (.inr ⟨hnumber, hv, hlt, hlabel, fun ht => ?_⟩)⟩
        rw [JSRuntime.label, h.contents_eq_none (hsymbol ht)]
        rfl
    rw [if_pos rfl, JSRuntime.JS_NewAtomStr2]
    simp only [JSRuntime.text]
    cases hnum : is_num_string (JS_NewStringLen str) with
    | none =>
      refine hnew fun k hk hunits => ?_
      rw [is_num_string_eq_some.mpr ⟨hunits, by omega⟩] at hnum
      cases hnum
    | some k =>
      obtain ⟨hunits, -⟩ := is_num_string_eq_some.mp hnum
      simp only
      split_ifs with hmax
      · rw [JS_ATOM_MAX_INT] at hmax
        exact ⟨rt, _, rfl, .inr (.inl ⟨k, by omega, hunits, rfl, rfl⟩)⟩
      · refine hnew fun j hj hunits' => hmax ?_
        have := decimal_inj.mp (hunits.symm.trans hunits')
        rw [JS_ATOM_MAX_INT]
        omega

/-- The string starts with a digit, and is not looked up. -/
def StartsWithDigit (str : List ℕ) : Prop := str.head?.any JSRuntime.is_digit = true

/-- **The atom of a C string** has its text, unless its bytes are found that are not ASCII. -/
theorem Counted.JS_NewAtomLen (h : Counted rt n) (JS_ATOM_END : ℕ) (hbytes : ∀ b ∈ str, b < 256)
    (string : Bool) (m : Memory) :
    ∃ rt' v, rt.JS_NewAtomLen2 JS_ATOM_END str .STRING string m = some (rt', v) ∧
      (v ≠ 0 → (rt'.atomString v = some (JS_NewStringLen str).units ↔
        (∀ b ∈ str, b < 128) ∨ StartsWithDigit str ∨ ¬rt.HasBytes str)) := by
  -- what is made of the string has its text
  have hmake : StartsWithDigit str ∨ ¬rt.HasBytes str →
      ∃ rt' v, rt.newAtomOfString JS_ATOM_END str .STRING string m = some (rt', v) ∧
        (v ≠ 0 → (rt'.atomString v = some (JS_NewStringLen str).units ↔
          (∀ b ∈ str, b < 128) ∨ StartsWithDigit str ∨ ¬rt.HasBytes str)) := by
    intro hcond
    obtain ⟨rt', v, hrt', hcase⟩ := h.newAtomOfString JS_ATOM_END str .STRING string m
    refine ⟨rt', v, hrt', fun hv => iff_of_true ?_ (.inr hcond)⟩
    rw [JSRuntime.atomString]
    obtain h0 | ⟨k, hk, hunits, rfl, -⟩ | ⟨-, -, hlt, hlabel, -⟩ := hcase
    · exact absurd h0 hv
    · rw [atomFromUInt32_eq hk, if_pos (Nat.le_add_right _ _), Nat.add_sub_cancel_left, hunits]
    · rw [if_neg (by omega), hlabel]
      rfl
  rw [JSRuntime.JS_NewAtomLen2]
  split_ifs with hdigit
  · exact hmake (.inl hdigit)
  · obtain ⟨hno, hfind⟩ | ⟨hhas, rt', v, hfind, -, hsame, hlabel⟩ := h.FindAtom JS_ATOM_END hbytes
    · rw [hfind]
      exact hmake (.inr hno)
    · rw [hfind]
      refine ⟨rt', v + 1, rfl, fun _ => ?_⟩
      obtain ⟨-, p, hp, -⟩ := Counted.get_of_label hlabel
      have hlt := h.lt_of_get hp
      rw [JSRuntime.atomString, if_neg (by omega), hsame, hlabel, Option.map_some, Option.some_inj,
        eq_comm, latin1_eq_iff hbytes]
      constructor
      · exact .inl
      · rintro (hascii | hd | hno)
        · exact hascii
        · exact absurd hd hdigit
        · exact absurd hhas hno

/-- **The private symbol of a C string** is a new one, unless the string is a number or its bytes are
    found. -/
theorem Counted.JS_NewAtomLenPrivate (h : Counted rt n) (JS_ATOM_END : ℕ)
    (hbytes : ∀ b ∈ str, b < 256) (string : Bool) (m : Memory) :
    ∃ rt' v, rt.JS_NewAtomLen2 JS_ATOM_END str .PRIVATE string m = some (rt', v) ∧
      (v ≠ 0 →
        (rt.label v = none ∧ rt'.label v = some ((JS_NewStringLen str).units, .SYMBOL) ↔
          (∀ k : ℕ, k < 2 ^ 31 → (JS_NewStringLen str).units ≠ decimal k) ∧
            (StartsWithDigit str ∨ ¬rt.HasBytes str))) := by
  have hmake : StartsWithDigit str ∨ ¬rt.HasBytes str →
      ∃ rt' v, rt.newAtomOfString JS_ATOM_END str .PRIVATE string m = some (rt', v) ∧
        (v ≠ 0 →
          (rt.label v = none ∧ rt'.label v = some ((JS_NewStringLen str).units, .SYMBOL) ↔
            (∀ k : ℕ, k < 2 ^ 31 → (JS_NewStringLen str).units ≠ decimal k) ∧
              (StartsWithDigit str ∨ ¬rt.HasBytes str))) := by
    intro hcond
    obtain ⟨rt', v, hrt', hcase⟩ := h.newAtomOfString JS_ATOM_END str .PRIVATE string m
    refine ⟨rt', v, hrt', fun hv => ?_⟩
    obtain h0 | ⟨k, hk, hunits, rfl, rfl⟩ | ⟨hnumber, -, -, hlabel, hfresh⟩ := hcase
    · exact absurd h0 hv
    · refine iff_of_false (fun ⟨hnone, hsome⟩ => ?_) fun ⟨hno, _⟩ => hno k hk hunits
      rw [hnone] at hsome
      cases hsome
    · exact iff_of_true ⟨hfresh rfl, hlabel⟩ ⟨hnumber, hcond⟩
  rw [JSRuntime.JS_NewAtomLen2]
  split_ifs with hdigit
  · exact hmake (.inl hdigit)
  · obtain ⟨hno, hfind⟩ | ⟨hhas, rt', v, hfind, -, hsame, hlabel⟩ := h.FindAtom JS_ATOM_END hbytes
    · rw [hfind]
      exact hmake (.inr hno)
    · rw [hfind]
      refine ⟨rt', v + 1, rfl, fun _ => iff_of_false (fun ⟨hnone, _⟩ => ?_) fun ⟨_, hcond⟩ => ?_⟩
      · rw [hlabel] at hnone
        cases hnone
      · exact hcond.elim hdigit fun hno => hno hhas

end

end JSEngine.Atoms
