import JSEngine.Exceptions.StackTrace

/-!
# What the pattern of a stack line matches

The matchers of `STACK_TRACE_PATTERN` as relations between a text and its groups. A
lazy group ends where what follows it matches for the first time.

* `toStackTraceElement_error_iff`: a line throws exactly where its number is beyond
  `int`;
* `frame_decodes_iff`: the line of a frame of Java gives the frame back exactly where it
  is `Plain`.
-/

namespace JSEngine.Exceptions

open JSEngine.Java JSEngine.Scalars

/-! ## Lazy groups -/

section

variable {α : Type} {next : JString → Option α}

/-- A lazy group is the shortest text in front of a match, without line terminators. -/
theorem lazily_eq_some_iff {s t : JString} {a : α} :
    lazily next s = some (t, a) ↔
      ∃ rest, s = t ++ rest ∧ next rest = some a ∧ (∀ c ∈ t, isLineTerminator c = false) ∧
        ∀ t₁ t₂, t = t₁ ++ t₂ → t₂ ≠ [] → next (t₂ ++ rest) = none := by
  induction s generalizing t with
  | nil =>
    constructor
    · intro h
      obtain ⟨a', ha, heq⟩ := Option.map_eq_some_iff.mp h
      cases heq
      refine ⟨[], rfl, ha, fun c hc => (nomatch hc), ?_⟩
      intro t₁ t₂ ht hne
      exact absurd (List.nil_eq_append_iff.mp ht).2 hne
    · rintro ⟨rest, hs, ha, -, -⟩
      obtain ⟨rfl, rfl⟩ := List.nil_eq_append_iff.mp hs
      exact Option.map_eq_some_iff.mpr ⟨a, ha, rfl⟩
  | cons c s ih =>
    cases hnext : next (c :: s) with
    | some b =>
      have hstep : lazily next (c :: s) = some ([], b) := by simp only [lazily, hnext]
      rw [hstep]
      constructor
      · intro h
        cases h
        refine ⟨c :: s, rfl, hnext, fun c hc => (nomatch hc), ?_⟩
        intro t₁ t₂ ht hne
        exact absurd (List.nil_eq_append_iff.mp ht).2 hne
      · rintro ⟨rest, hs, ha, -, hmin⟩
        by_cases ht : t = []
        · obtain rfl := ht
          obtain rfl : c :: s = rest := hs
          obtain rfl := Option.some.inj (hnext.symm.trans ha)
          rfl
        · have hnone := hmin [] t rfl ht
          rw [← hs, hnext] at hnone
          cases hnone
    | none =>
      have hstep : lazily next (c :: s) =
          if isLineTerminator c then none
          else (lazily next s).map fun r => (c :: r.1, r.2) := by
        simp only [lazily, hnext]
      rw [hstep]
      constructor
      · intro h
        split_ifs at h with hterm
        obtain ⟨⟨t', a'⟩, hrec, heq⟩ := Option.map_eq_some_iff.mp h
        cases heq
        obtain ⟨rest, rfl, ha, hline, hmin⟩ := ih.mp hrec
        refine ⟨rest, rfl, ha, ?_, ?_⟩
        · exact List.forall_mem_cons.mpr ⟨by simpa using hterm, hline⟩
        · intro t₁ t₂ ht hne
          cases t₁ with
          | nil =>
            obtain rfl : c :: t' = t₂ := ht
            exact hnext
          | cons d t₁ =>
            obtain ⟨-, ht⟩ := List.cons.inj ht
            exact hmin t₁ t₂ ht hne
      · rintro ⟨rest, hs, ha, hline, hmin⟩
        cases t with
        | nil =>
          obtain rfl : c :: s = rest := hs
          rw [hnext] at ha
          cases ha
        | cons d t =>
          obtain ⟨rfl, rfl⟩ := List.cons.inj hs
          obtain ⟨hterm, hline⟩ := List.forall_mem_cons.mp hline
          rw [if_neg (by simpa using hterm)]
          refine Option.map_eq_some_iff.mpr ⟨(t, a), ?_, rfl⟩
          refine ih.mpr ⟨rest, rfl, ha, hline, ?_⟩
          intro t₁ t₂ ht hne
          exact hmin (c :: t₁) t₂ (by rw [ht, List.cons_append]) hne

/-- There is a match if there is one behind a text without line terminators. -/
theorem lazily_isSome {t rest : JString} {a : α} (ha : next rest = some a)
    (hline : ∀ c ∈ t, isLineTerminator c = false) : ∃ r, lazily next (t ++ rest) = some r := by
  induction t with
  | nil =>
    cases rest with
    | nil => exact ⟨([], a), Option.map_eq_some_iff.mpr ⟨a, ha, rfl⟩⟩
    | cons c rest => exact ⟨([], a), by simp only [List.nil_append, lazily, ha]⟩
  | cons c t ih =>
    obtain ⟨hterm, hline⟩ := List.forall_mem_cons.mp hline
    obtain ⟨r, hr⟩ := ih hline
    rw [List.cons_append]
    cases hnext : next (c :: (t ++ rest)) with
    | some b => exact ⟨([], b), by simp only [lazily, hnext]⟩
    | none =>
      refine ⟨(c :: r.1, r.2), ?_⟩
      simp only [lazily, hnext, hterm, hr]
      rfl

end

/-! ## The end of a line -/

def closing : BitVec 16 := 0x29#16

def colon : BitVec 16 := 0x3A#16

/-- The group of the digits. -/
def digitGroup (digits : JString) : Option JString := if digits = [] then none else some digits

theorem matchLine_eq_some_iff {s : JString} {o : Option JString} :
    matchLine s = some o ↔
      ∃ digits rest, s = digits ++ closing :: rest ∧ (∀ c ∈ digits, isDigit c = true) ∧
        (∀ c ∈ rest, isLineTerminator c = false) ∧ o = digitGroup digits := by
  have hsplit : s = s.takeWhile isDigit ++ s.dropWhile isDigit :=
    List.takeWhile_append_dropWhile.symm
  constructor
  · intro h
    unfold matchLine at h
    split at h
    · rename_i c rest hdrop
      obtain ⟨hc, h⟩ := Option.ite_none_right_eq_some.mp h
      obtain ⟨hclosing, hline⟩ := Bool.and_eq_true_iff.mp hc
      rw [hdrop, beq_iff_eq.mp hclosing] at hsplit
      refine ⟨_, rest, hsplit, fun c hmem => List.mem_takeWhile_imp hmem, ?_, ?_⟩
      · intro c hmem
        simpa using List.all_eq_true.mp hline c hmem
      · exact (Option.some.inj h).symm
    · cases h
  · rintro ⟨digits, rest, rfl, hdigits, hline, rfl⟩
    have hclosing : isDigit closing = false := by decide
    have htake : (digits ++ closing :: rest).takeWhile isDigit = digits := by
      rw [List.takeWhile_append_of_pos hdigits,
        List.takeWhile_cons_of_neg (by rw [hclosing]; exact Bool.false_ne_true), List.append_nil]
    have hdrop : (digits ++ closing :: rest).dropWhile isDigit = closing :: rest := by
      rw [List.dropWhile_append_of_pos hdigits,
        List.dropWhile_cons_of_neg (by rw [hclosing]; exact Bool.false_ne_true)]
    have hall : (closing == 0x29#16 && rest.all (!isLineTerminator ·)) = true := by
      refine Bool.and_eq_true_iff.mpr ⟨rfl, List.all_eq_true.mpr fun c hc => ?_⟩
      simpa using hline c hc
    unfold matchLine
    simp only [hdrop, htake]
    rw [if_pos hall]
    rfl

/-- The colon is taken where it can be. -/
theorem matchColon_colon (s : JString) : matchColon (colon :: s) = matchLine s := by
  have hnone : matchLine (colon :: s) = none := by
    cases h : matchLine (colon :: s) with
    | none => rfl
    | some o =>
      obtain ⟨digits, rest, hs, hdigits, -, -⟩ := matchLine_eq_some_iff.mp h
      cases digits with
      | nil => exact absurd (List.cons.inj hs).1 (by decide)
      | cons c digits =>
        have hc := hdigits c List.mem_cons_self
        rw [← (List.cons.inj hs).1] at hc
        exact absurd hc (by decide)
  show ((if colon == 0x3A#16 then matchLine s else none).or (matchLine (colon :: s))) = _
  rw [if_pos (by rfl), hnone, Option.or_none]

theorem matchColon_of_ne {c : BitVec 16} (h : c ≠ colon) (s : JString) :
    matchColon (c :: s) = matchLine (c :: s) := by
  have hc : ¬ (c == 0x3A#16) = true := fun heq => h (beq_iff_eq.mp heq)
  show ((if c == 0x3A#16 then matchLine s else none).or (matchLine (c :: s))) = _
  rw [if_neg hc, Option.none_or]

/-- What the end of a line matches: a colon, if there is one, digits and a parenthesis. -/
theorem matchColon_eq_some_iff {s : JString} {o : Option JString} :
    matchColon s = some o ↔
      ∃ mark digits rest, (mark = [] ∨ mark = [colon]) ∧
        s = mark ++ digits ++ closing :: rest ∧ (∀ c ∈ digits, isDigit c = true) ∧
        (∀ c ∈ rest, isLineTerminator c = false) ∧ o = digitGroup digits := by
  cases s with
  | nil =>
    refine iff_of_false (fun h => (nomatch h)) ?_
    rintro ⟨mark, digits, rest, -, hs, -⟩
    simp at hs
  | cons c s =>
    by_cases hc : c = colon
    · subst hc
      rw [matchColon_colon, matchLine_eq_some_iff]
      constructor
      · rintro ⟨digits, rest, rfl, h⟩
        exact ⟨[colon], digits, rest, Or.inr rfl, rfl, h⟩
      · rintro ⟨mark, digits, rest, rfl | rfl, hs, hdigits, h⟩
        · cases digits with
          | nil => exact absurd (List.cons.inj hs).1 (by decide)
          | cons d digits =>
            have hd := hdigits d List.mem_cons_self
            rw [← (List.cons.inj hs).1] at hd
            exact absurd hd (by decide)
        · exact ⟨digits, rest, (List.cons.inj hs).2, hdigits, h⟩
    · rw [matchColon_of_ne hc, matchLine_eq_some_iff]
      constructor
      · rintro ⟨digits, rest, hs, h⟩
        exact ⟨[], digits, rest, Or.inl rfl, hs, h⟩
      · rintro ⟨mark, digits, rest, rfl | rfl, hs, h⟩
        · exact ⟨digits, rest, hs, h⟩
        · exact absurd (List.cons.inj hs).1 hc

/-! ## The file and the function -/

def blank : BitVec 16 := 0x20#16

def opening : BitVec 16 := 0x28#16

def closingBracket : BitVec 16 := 0x5D#16

def openingBracket : BitVec 16 := 0x5B#16

theorem matchFile_eq_some_iff {s : JString} {r : JString × Option JString} :
    matchFile s = some r ↔
      ∃ rest, s = blank :: opening :: rest ∧ lazily matchColon rest = some r := by
  constructor
  · intro h
    unfold matchFile at h
    split at h
    · obtain ⟨hc, h⟩ := Option.ite_none_right_eq_some.mp h
      obtain ⟨hblank, hopening⟩ := Bool.and_eq_true_iff.mp hc
      rw [beq_iff_eq.mp hblank, beq_iff_eq.mp hopening]
      exact ⟨_, rfl, h⟩
    · cases h
  · rintro ⟨rest, rfl, h⟩
    show (if blank == 0x20#16 && opening == 0x28#16 then lazily matchColon rest else none) = some r
    rw [if_pos (by rfl), h]

/-- A bracket is taken where it can be, and there is none in front of the blank. -/
theorem matchClosing_eq_some_iff {s : JString} {r : JString × Option JString} :
    matchClosing s = some r ↔
      ∃ mark rest, (mark = [] ∨ mark = [closingBracket]) ∧ s = mark ++ rest ∧
        matchFile rest = some r := by
  have hbracket : ∀ s, matchFile (closingBracket :: s) = none := by
    intro s
    cases h : matchFile (closingBracket :: s) with
    | none => rfl
    | some r =>
      obtain ⟨rest, hs, -⟩ := matchFile_eq_some_iff.mp h
      exact absurd (List.cons.inj hs).1 (by decide)
  cases s with
  | nil =>
    refine iff_of_false (fun h => (nomatch h)) ?_
    rintro ⟨mark, rest, rfl | rfl, hs, h⟩
    · obtain rfl : [] = rest := hs
      cases h
    · cases hs
  | cons c s =>
    by_cases hc : c = closingBracket
    · subst hc
      have hstep : matchClosing (closingBracket :: s) = matchFile s := by
        show ((if closingBracket == 0x5D#16 then matchFile s else none).or _) = _
        rw [if_pos (by rfl), hbracket, Option.or_none]
      rw [hstep]
      constructor
      · exact fun h => ⟨[closingBracket], s, Or.inr rfl, rfl, h⟩
      · rintro ⟨mark, rest, rfl | rfl, hs, h⟩
        · obtain rfl : closingBracket :: s = rest := hs
          rw [hbracket] at h
          cases h
        · obtain rfl : s = rest := (List.cons.inj hs).2
          exact h
    · have hne : ¬ (c == 0x5D#16) = true := fun heq => hc (beq_iff_eq.mp heq)
      have hstep : matchClosing (c :: s) = matchFile (c :: s) := by
        show ((if c == 0x5D#16 then matchFile s else none).or _) = _
        rw [if_neg hne, Option.none_or]
      rw [hstep]
      constructor
      · exact fun h => ⟨[], c :: s, Or.inl rfl, rfl, h⟩
      · rintro ⟨mark, rest, rfl | rfl, hs, h⟩
        · obtain rfl : c :: s = rest := hs
          exact h
        · exact absurd (List.cons.inj hs).1 hc

theorem matchOpening_cases {s : JString} {r : JString × JString × Option JString}
    (h : matchOpening s = some r) :
    (∃ rest, s = openingBracket :: rest ∧ lazily matchClosing rest = some r) ∨
      lazily matchClosing s = some r := by
  cases s with
  | nil => cases h
  | cons c s =>
    obtain hfirst | ⟨-, hsecond⟩ := Option.or_eq_some_iff.mp h
    · obtain ⟨hc, hfirst⟩ := Option.ite_none_right_eq_some.mp hfirst
      rw [beq_iff_eq.mp hc]
      exact Or.inl ⟨s, rfl, hfirst⟩
    · exact Or.inr hsecond

/-- The first alternative is taken where there is one. -/
theorem matchOpening_bracket {s : JString} {r : JString × JString × Option JString}
    (h : lazily matchClosing s = some r) : matchOpening (openingBracket :: s) = some r := by
  show ((if openingBracket == 0x5B#16 then lazily matchClosing s else none).or _) = _
  rw [if_pos (by rfl), h]
  rfl

theorem matchPattern_cases {s : JString} {r : JString × JString × Option JString}
    (h : matchPattern s = some r) :
    ∃ rest, s.dropWhile isSpace = 0x61#16 :: 0x74#16 :: blank :: rest ∧
      matchOpening rest = some r := by
  unfold matchPattern at h
  split at h
  · rename_i a t c rest hdrop
    obtain ⟨hc, h⟩ := Option.ite_none_right_eq_some.mp h
    obtain ⟨hat, hblank⟩ := Bool.and_eq_true_iff.mp hc
    obtain ⟨ha, ht⟩ := Bool.and_eq_true_iff.mp hat
    rw [beq_iff_eq.mp ha, beq_iff_eq.mp ht, beq_iff_eq.mp hblank] at hdrop
    exact ⟨rest, hdrop, h⟩
  · cases h

/-! ## The number -/

/-- The number that the digits write. -/
def number (digits : JString) : ℕ := digits.foldl (fun n c => 10 * n + (c.toNat - 0x30)) 0

theorem digitGroup_eq_some {digits digits' : JString}
    (h : some digits = digitGroup digits') : digits' = digits ∧ digits ≠ [] := by
  unfold digitGroup at h
  split_ifs at h with hne
  obtain rfl := Option.some.inj h
  exact ⟨rfl, hne⟩

theorem isDigit_iff (c : BitVec 16) : isDigit c = true ↔ 0x30 ≤ c.toNat ∧ c.toNat < 0x3A := by
  simp [isDigit]

theorem readDigits_number {digits : JString} (hne : digits ≠ [])
    (h : ∀ c ∈ digits, isDigit c = true) : readDigits digits = some (number digits) :=
  if_pos ⟨hne, fun c hc => (isDigit_iff c).mp (h c hc)⟩

/-- `Integer.parseInt` of digits: the number, if it is an `int`. -/
theorem parseDigits_eq {digits : JString} (hne : digits ≠ [])
    (h : ∀ c ∈ digits, isDigit c = true) :
    parseDigits digits =
      if number digits < 2 ^ 31 then .ok (number digits : ℤ) else .error .numberFormat := by
  have hsigned := parseSigned_of_readDigits (readDigits_number hne h)
  have hint : parseIntegral 32 digits =
      if number digits < 2 ^ 31 then some (number digits : ℤ) else none := by
    unfold parseIntegral
    rw [hsigned, Option.filter_some]
    have hiff : decide (-2 ^ (32 - 1) ≤ (number digits : ℤ) ∧ (number digits : ℤ) < 2 ^ (32 - 1)) =
        true ↔ number digits < 2 ^ 31 := by
      rw [decide_eq_true_iff]
      omega
    simp only [hiff]
  unfold parseDigits
  rw [hint]
  split_ifs <;> rfl

/-- The texts of a line have no line terminator, and its digits are read behind them. -/
theorem matchPattern_texts {s function file : JString} {digits : Option JString}
    (h : matchPattern s = some (function, file, digits)) :
    (∀ c ∈ function, isLineTerminator c = false) ∧
      (∀ c ∈ file, isLineTerminator c = false) ∧ ∃ rest, matchColon rest = some digits := by
  obtain ⟨rest, -, hopening⟩ := matchPattern_cases h
  have hclosing : ∃ rest, lazily matchClosing rest = some (function, file, digits) := by
    obtain ⟨rest, -, hlazy⟩ | hlazy := matchOpening_cases hopening
    · exact ⟨rest, hlazy⟩
    · exact ⟨_, hlazy⟩
  obtain ⟨_, hlazy⟩ := hclosing
  obtain ⟨_, -, hmatch, hfunction, -⟩ := lazily_eq_some_iff.mp hlazy
  obtain ⟨_, _, -, -, hmatch⟩ := matchClosing_eq_some_iff.mp hmatch
  obtain ⟨_, -, hlazy⟩ := matchFile_eq_some_iff.mp hmatch
  obtain ⟨rest, -, hcolon, hfile, -⟩ := lazily_eq_some_iff.mp hlazy
  exact ⟨hfunction, hfile, rest, hcolon⟩

/-- The digits of a line. -/
theorem matchPattern_digits {s function file digits : JString}
    (h : matchPattern s = some (function, file, some digits)) :
    digits ≠ [] ∧ ∀ c ∈ digits, isDigit c = true := by
  obtain ⟨-, -, rest, hcolon⟩ := matchPattern_texts h
  obtain ⟨_, digits', _, -, -, hdigits, -, hgroup⟩ := matchColon_eq_some_iff.mp hcolon
  obtain ⟨rfl, hne⟩ := digitGroup_eq_some hgroup
  exact ⟨hne, hdigits⟩

/-- The number of the line is an `int`, if there is one. -/
def NumberFits (line : JString) : Prop :=
  ∀ function file digits, matchPattern line = some (function, file, some digits) →
    number digits < 2 ^ 31

/-- A line throws exactly where its number is beyond `int`. -/
theorem toStackTraceElement_error_iff (line : JString) :
    (∃ e, toStackTraceElement line = .error e) ↔ ¬ NumberFits line := by
  unfold toStackTraceElement NumberFits
  cases h : matchPattern line with
  | none => simp
  | some r =>
    obtain ⟨function, file, digits⟩ := r
    cases digits with
    | none => simp
    | some digits =>
      obtain ⟨hne, hdigits⟩ := matchPattern_digits h
      have hparse := parseDigits_eq hne hdigits
      simp only [hparse]
      split_ifs with hlt <;> simp [Except.map] <;> omega

theorem parses_iff (detailMessage : JString) :
    Parses detailMessage ↔ ∀ line ∈ (lines detailMessage).tail, NumberFits line := by
  unfold Parses
  refine forall_congr' fun line => imp_congr_right fun _ => ?_
  rw [← not_iff_not, ← toStackTraceElement_error_iff]
  simp

/-! ## The line of a frame -/

/-- The class and the method, as they are written. -/
def qualified (frame : StackTraceElement) : JString :=
  frame.className ++ 0x2E#16 :: frame.methodName

/-- The line of a frame, without the newline in front of it. -/
def frameText (frame : StackTraceElement) : JString :=
  jstr "    at [" ++ (qualified frame ++ closingBracket :: blank :: opening ::
    (formatted frame.fileName ++ colon :: (decimal frame.lineNumber ++ [closing])))

/-- A frame as it is read from its line. -/
def named (frame : StackTraceElement) : StackTraceElement :=
  ⟨jstr "<javascript>", qualified frame, frame.fileName, frame.lineNumber⟩

/-- A frame that its line gives back: it has a file, without a parenthesis, a number that
    is not negative, no parenthesis behind a blank in its names, and is one line. -/
structure Plain (frame : StackTraceElement) : Prop where
  names : ∀ c ∈ qualified frame, isLineTerminator c = false
  infix_free : ¬ [blank, opening] <:+: qualified frame
  file : ∃ file, frame.fileName = some file ∧ closing ∉ file ∧
    ∀ c ∈ file, isLineTerminator c = false
  number_nonneg : 0 ≤ frame.lineNumber
  number_lt : frame.lineNumber < 2 ^ 31

theorem frameLine_eq (frame : StackTraceElement) : frameLine frame = newline :: frameText frame := by
  have hstart : jstr "\n    at [" = newline :: jstr "    at [" := by rfl
  have hmiddle : jstr "] (" = [closingBracket, blank, opening] := by rfl
  simp only [frameLine, frameText, qualified, hstart, hmiddle, List.append_assoc,
    List.cons_append, List.nil_append]
  rfl

theorem matchPattern_at (s : JString) :
    matchPattern (jstr "    at [" ++ s) = matchOpening (openingBracket :: s) := by
  rfl

theorem decimal_digits {n : ℤ} (h : 0 ≤ n) :
    decimal n ≠ [] ∧ ∀ c ∈ decimal n, isDigit c = true := by
  unfold decimal
  rw [if_neg (by omega), List.nil_append]
  split_ifs with h0
  · refine ⟨List.cons_ne_nil _ _, fun c hc => ?_⟩
    obtain rfl := List.mem_singleton.mp hc
    decide
  · refine ⟨by simpa [Nat.digits_eq_nil_iff_eq_zero] using h0, ?_⟩
    intro c hc
    obtain ⟨d, hd, rfl⟩ := List.mem_map.mp hc
    have hlt := Nat.digits_lt_base (by decide) (List.mem_reverse.mp hd)
    rw [isDigit_iff, BitVec.toNat_ofNat]
    omega

theorem decimal_neg {n : ℤ} (h : n < 0) : ∃ s, decimal n = 0x2D#16 :: s := by
  unfold decimal
  rw [if_pos h]
  exact ⟨_, rfl⟩

/-- A digit is none of the marks of a line. -/
theorem ne_of_isDigit {c d : BitVec 16} (h : isDigit c = true) (hd : isDigit d = false) :
    c ≠ d := by
  rintro rfl
  rw [h] at hd
  cases hd

theorem notMem_digits {digits : JString} (h : ∀ c ∈ digits, isDigit c = true) {d : BitVec 16}
    (hd : isDigit d = false) : d ∉ digits := fun hmem => ne_of_isDigit (h d hmem) hd rfl

/-- The number of a frame is read from its end, if it is not negative. -/
theorem matchColon_decimal {n : ℤ} {o : Option JString} :
    matchColon (colon :: (decimal n ++ [closing])) = some o ↔ 0 ≤ n ∧ o = some (decimal n) := by
  rw [matchColon_colon, matchLine_eq_some_iff]
  constructor
  · rintro ⟨digits, rest, hs, hdigits, -, rfl⟩
    have hn : 0 ≤ n := by
      by_contra hneg
      obtain ⟨s, hdecimal⟩ := decimal_neg (n := n) (by omega)
      rw [hdecimal] at hs
      cases digits with
      | nil => exact absurd (List.cons.inj hs).1 (by decide)
      | cons d digits =>
        exact ne_of_isDigit (hdigits d List.mem_cons_self) (by decide) (List.cons.inj hs).1.symm
    obtain ⟨hne, hdecimal⟩ := decimal_digits hn
    have hclosing := notMem_digits hdecimal (d := closing) (by decide)
    obtain ⟨rfl, -⟩ := (List.append_cons_inj_of_notMem hclosing List.not_mem_nil).mp hs
    exact ⟨hn, if_neg hne⟩
  · rintro ⟨hn, rfl⟩
    obtain ⟨hne, hdecimal⟩ := decimal_digits hn
    exact ⟨decimal n, [], rfl, hdecimal, fun c hc => (nomatch hc), (if_neg hne).symm⟩

/-- The file ends at the last colon if there is no parenthesis in it. -/
theorem matchColon_inside {t : JString} {n : ℤ} (ht : t ≠ []) (hclosing : closing ∉ t)
    (hn : 0 ≤ n) : matchColon (t ++ colon :: (decimal n ++ [closing])) = none := by
  cases h : matchColon (t ++ colon :: (decimal n ++ [closing])) with
  | none => rfl
  | some o =>
    obtain ⟨mark, digits, rest, hmark, hs, hdigits, -, -⟩ := matchColon_eq_some_iff.mp h
    have hdecimal := notMem_digits (decimal_digits hn).2 (d := closing) (by decide)
    have hfront : closing ∉ t ++ colon :: decimal n := by
      rw [List.mem_append, List.mem_cons]
      rintro (hmem | hmem | hmem)
      · exact hclosing hmem
      · exact absurd hmem (by decide)
      · exact hdecimal hmem
    have hs' : (t ++ colon :: decimal n) ++ closing :: [] = (mark ++ digits) ++ closing :: rest := by
      rw [← hs]
      simp
    obtain ⟨heq, -⟩ := (List.append_cons_inj_of_notMem hfront List.not_mem_nil).mp hs'
    have hcolon : colon ∉ digits := notMem_digits hdigits (by decide)
    cases t with
    | nil => exact absurd rfl ht
    | cons c t =>
      obtain rfl | rfl := hmark
      · have heq' : c :: t ++ colon :: decimal n = digits := heq
        exact absurd (heq' ▸ List.mem_append_right _ List.mem_cons_self) hcolon
      · have heq' : t ++ colon :: decimal n = digits := (List.cons.inj heq).2
        exact absurd (heq' ▸ List.mem_append_right _ List.mem_cons_self) hcolon

/-- The function ends at the bracket if there is no parenthesis behind a blank in it. -/
theorem matchClosing_inside {t rest : JString} (ht : t ≠ [])
    (hfree : ¬ [blank, opening] <:+: t) :
    matchClosing (t ++ closingBracket :: blank :: opening :: rest) = none := by
  cases h : matchClosing (t ++ closingBracket :: blank :: opening :: rest) with
  | none => rfl
  | some r =>
    obtain ⟨mark, rest', hmark, hs, hfile⟩ := matchClosing_eq_some_iff.mp h
    obtain ⟨rest', rfl, -⟩ := matchFile_eq_some_iff.mp hfile
    -- the mark, the blank and the parenthesis lie in `t`, or reach the bracket behind it
    have hlong : ∀ u : JString, u ++ closingBracket :: blank :: opening :: rest =
        blank :: opening :: rest' → [blank, opening] <:+: u := by
      intro u hu
      cases u with
      | nil => exact absurd (List.cons.inj hu).1 (by decide)
      | cons c u =>
        obtain ⟨hc, hrest⟩ := List.cons.inj hu
        cases u with
        | nil => exact absurd (List.cons.inj hrest).1 (by decide)
        | cons d u => exact ⟨[], u, by rw [hc, (List.cons.inj hrest).1]; rfl⟩
    obtain rfl | rfl := hmark
    · exact absurd (hlong t hs) hfree
    · cases t with
      | nil => exact absurd rfl ht
      | cons c t =>
        obtain ⟨before, after, hsub⟩ := hlong t (List.cons.inj hs).2
        exact absurd ⟨c :: before, after, by rw [← hsub]; simp⟩ hfree

theorem infix_of_suffix {u t₁ t₂ : JString} (h : ¬ u <:+: t₁ ++ t₂) : ¬ u <:+: t₂ :=
  fun hsub => h (hsub.trans (List.suffix_append t₁ t₂).isInfix)

/-- A plain frame is read back. -/
theorem frame_decodes {frame : StackTraceElement} (h : Plain frame) :
    toStackTraceElement (frameText frame) = .ok (some (named frame)) := by
  obtain ⟨file, hfile, hclosing, hline⟩ := h.file
  have hcolon : matchColon (colon :: (decimal frame.lineNumber ++ [closing])) =
      some (some (decimal frame.lineNumber)) := matchColon_decimal.mpr ⟨h.number_nonneg, rfl⟩
  have hlazy : lazily matchColon (file ++ colon :: (decimal frame.lineNumber ++ [closing])) =
      some (file, some (decimal frame.lineNumber)) := by
    refine lazily_eq_some_iff.mpr ⟨_, rfl, hcolon, hline, ?_⟩
    intro t₁ t₂ ht hne
    refine matchColon_inside hne ?_ h.number_nonneg
    exact fun hmem => hclosing (ht ▸ List.mem_append_right t₁ hmem)
  have hmatch : matchClosing (closingBracket :: blank :: opening ::
      (file ++ colon :: (decimal frame.lineNumber ++ [closing]))) =
      some (file, some (decimal frame.lineNumber)) :=
    matchClosing_eq_some_iff.mpr ⟨[closingBracket], _, Or.inr rfl, rfl,
      matchFile_eq_some_iff.mpr ⟨_, rfl, hlazy⟩⟩
  have hpattern : matchPattern (frameText frame) =
      some (qualified frame, file, some (decimal frame.lineNumber)) := by
    unfold frameText
    rw [matchPattern_at, hfile]
    refine matchOpening_bracket (lazily_eq_some_iff.mpr ⟨_, rfl, hmatch, h.names, ?_⟩)
    intro t₁ t₂ ht hne
    exact matchClosing_inside hne (infix_of_suffix (ht ▸ h.infix_free))
  have hint : parseIntegral 32 (decimal frame.lineNumber) = some frame.lineNumber := by
    have hnonneg := h.number_nonneg
    have hlt := h.number_lt
    exact parseIntegral_decimal (by omega) (by omega)
  have hnamed : named frame = ⟨jstr "<javascript>", qualified frame, some file,
      frame.lineNumber⟩ := by rw [named, hfile]
  unfold toStackTraceElement
  simp only [hpattern, parseDigits, hint, hnamed]
  rfl

/-! ### The other way -/

/-- What is read from a line, in its groups. -/
theorem groups_of_element {s : JString} {element : StackTraceElement}
    (h : toStackTraceElement s = .ok (some element)) :
    ∃ file digits, matchPattern s = some (element.methodName, file, digits) ∧
      element.fileName = some file ∧
      ∀ d, digits = some d → parseDigits d = .ok element.lineNumber := by
  unfold toStackTraceElement at h
  cases hpattern : matchPattern s with
  | none =>
    rw [hpattern] at h
    cases h
  | some r =>
    obtain ⟨function, file, digits⟩ := r
    simp only [hpattern] at h
    cases digits with
    | none =>
      obtain rfl := Option.some.inj (Except.ok.inj h)
      exact ⟨file, none, rfl, rfl, fun d hd => (nomatch hd)⟩
    | some digits =>
      simp only at h
      cases hparse : parseDigits digits with
      | error e =>
        rw [hparse] at h
        cases h
      | ok line =>
        rw [hparse] at h
        obtain rfl := Option.some.inj (Except.ok.inj h)
        refine ⟨file, some digits, rfl, rfl, ?_⟩
        rintro _ ⟨⟩
        exact hparse

theorem line_of_matchColon {s : JString} {o : Option JString} (h : matchColon s = some o) :
    ∀ c ∈ s, isLineTerminator c = false := by
  obtain ⟨mark, digits, rest, hmark, rfl, hdigits, hline, -⟩ := matchColon_eq_some_iff.mp h
  have hdigit : ∀ c ∈ digits, isLineTerminator c = false := by
    intro c hc
    have hc := (isDigit_iff c).mp (hdigits c hc)
    simp only [isLineTerminator, Bool.or_eq_false_iff, beq_eq_false_iff_ne]
    refine ⟨⟨⟨⟨?_, ?_⟩, ?_⟩, ?_⟩, ?_⟩ <;> rintro rfl <;> simp at hc
  intro c hc
  simp only [List.mem_append, List.mem_cons] at hc
  obtain (hc | hc) | rfl | hc := hc
  · obtain rfl | rfl := hmark
    · cases hc
    · rw [List.mem_singleton.mp hc]
      decide
  · exact hdigit c hc
  · decide
  · exact hline c hc

theorem line_of_lazily {α : Type} {next : JString → Option α} {s t : JString} {a : α}
    (hnext : ∀ s a, next s = some a → ∀ c ∈ s, isLineTerminator c = false)
    (h : lazily next s = some (t, a)) : ∀ c ∈ s, isLineTerminator c = false := by
  obtain ⟨rest, rfl, hrest, hline, -⟩ := lazily_eq_some_iff.mp h
  intro c hc
  obtain hc | hc := List.mem_append.mp hc
  · exact hline c hc
  · exact hnext rest a hrest c hc

theorem line_of_matchClosing (s : JString) (r : JString × Option JString)
    (h : matchClosing s = some r) : ∀ c ∈ s, isLineTerminator c = false := by
  obtain ⟨mark, rest, hmark, rfl, hfile⟩ := matchClosing_eq_some_iff.mp h
  obtain ⟨rest, rfl, hlazy⟩ := matchFile_eq_some_iff.mp hfile
  have hrest := line_of_lazily (fun s o => line_of_matchColon) hlazy
  intro c hc
  simp only [List.mem_append, List.mem_cons] at hc
  obtain hc | rfl | rfl | hc := hc
  · obtain rfl | rfl := hmark
    · cases hc
    · rw [List.mem_singleton.mp hc]
      decide
  · decide
  · decide
  · exact hrest c hc

/-- There is a match of the file in front of a parenthesis at the end. -/
theorem file_isSome {t : JString} (hline : ∀ c ∈ t, isLineTerminator c = false) :
    ∃ r, matchFile (blank :: opening :: (t ++ [closing])) = some r := by
  have hend : matchColon [closing] = some none := by rfl
  obtain ⟨r, hr⟩ := lazily_isSome hend hline
  exact ⟨r, matchFile_eq_some_iff.mpr ⟨_, rfl, hr⟩⟩

/-- What is behind the bracket in the line of a frame, without the parenthesis. -/
def fileText (frame : StackTraceElement) : JString :=
  formatted frame.fileName ++ colon :: decimal frame.lineNumber

theorem frameText_eq (frame : StackTraceElement) :
    frameText frame = jstr "    at [" ++ (qualified frame ++ closingBracket :: blank :: opening ::
      (fileText frame ++ [closing])) := by
  simp only [frameText, fileText, List.append_assoc, List.cons_append]

/-- The names are read by the first alternative: the line has no line terminators, so
    that it matches. -/
theorem names_of_decodes {frame : StackTraceElement} {file : JString} {digits : Option JString}
    (h : matchPattern (frameText frame) = some (qualified frame, file, digits)) :
    (∀ c ∈ fileText frame, isLineTerminator c = false) ∧
      lazily matchClosing (qualified frame ++ closingBracket :: blank :: opening ::
        (fileText frame ++ [closing])) = some (qualified frame, file, digits) := by
  rw [frameText_eq, matchPattern_at] at h
  have hline : ∀ c ∈ qualified frame ++ closingBracket :: blank :: opening ::
      (fileText frame ++ [closing]), isLineTerminator c = false := by
    obtain ⟨rest, hs, hlazy⟩ | hlazy := matchOpening_cases h
    · rw [(List.cons.inj hs).2]
      exact line_of_lazily line_of_matchClosing hlazy
    · exact fun c hc => line_of_lazily line_of_matchClosing hlazy c (List.mem_cons_of_mem _ hc)
  have hfile : ∀ c ∈ fileText frame, isLineTerminator c = false :=
    fun c hc => hline c (by simp [hc])
  obtain ⟨r, hr⟩ := file_isSome hfile
  have hclosing : matchClosing (closingBracket :: blank :: opening ::
      (fileText frame ++ [closing])) = some r :=
    matchClosing_eq_some_iff.mpr ⟨[closingBracket], _, Or.inr rfl, rfl, hr⟩
  obtain ⟨r', hr'⟩ := lazily_isSome (t := qualified frame) hclosing
    fun c hc => hline c (List.mem_append_left _ hc)
  have hsame : r' = (qualified frame, file, digits) :=
    Option.some.inj ((matchOpening_bracket hr').symm.trans h)
  exact ⟨hfile, hsame ▸ hr'⟩

/-- A blank and a parenthesis in the names would end them before the bracket does. -/
theorem not_infix_of_shortest {names text : JString}
    (hnames : ∀ c ∈ names, isLineTerminator c = false)
    (htext : ∀ c ∈ text, isLineTerminator c = false)
    (hmin : ∀ t₁ t₂, names = t₁ ++ t₂ → t₂ ≠ [] →
      matchClosing (t₂ ++ closingBracket :: blank :: opening :: (text ++ [closing])) = none) :
    ¬ [blank, opening] <:+: names := by
  rintro ⟨before, after, hsub⟩
  have hafter : ∀ c ∈ after ++ closingBracket :: blank :: opening :: text,
      isLineTerminator c = false := by
    intro c hc
    simp only [List.mem_append, List.mem_cons] at hc
    obtain hc | rfl | rfl | rfl | hc := hc
    · exact hnames c (by rw [← hsub]; simp [hc])
    · decide
    · decide
    · decide
    · exact htext c hc
  obtain ⟨r, hr⟩ := file_isSome hafter
  have hnone := hmin before (blank :: opening :: after) (by rw [← hsub]; simp) (by simp)
  have hsome : matchClosing ((blank :: opening :: after) ++ closingBracket :: blank :: opening ::
      (text ++ [closing])) = some r :=
    matchClosing_eq_some_iff.mpr ⟨[], _, Or.inl rfl, rfl, by simpa using hr⟩
  rw [hnone] at hsome
  cases hsome

/-- A closing parenthesis in the file would end it before the colon does. -/
theorem notMem_of_shortest {file text : JString}
    (hfile : ∀ c ∈ file, isLineTerminator c = false)
    (htext : ∀ c ∈ colon :: text, isLineTerminator c = false)
    (hmin : ∀ t₁ t₂, file = t₁ ++ t₂ → t₂ ≠ [] → matchColon (t₂ ++ colon :: text) = none) :
    closing ∉ file := by
  intro hmem
  obtain ⟨before, after, hsplit⟩ := List.append_of_mem hmem
  have hnone := hmin before (closing :: after) hsplit (by simp)
  have hrest : ∀ c ∈ after ++ colon :: text, isLineTerminator c = false := by
    intro c hc
    obtain hc | hc := List.mem_append.mp hc
    · exact hfile c (by rw [hsplit]; simp [hc])
    · exact htext c hc
  have hsome : matchColon ((closing :: after) ++ colon :: text) = some none :=
    matchColon_eq_some_iff.mpr
      ⟨[], [], _, Or.inl rfl, rfl, fun c hc => (nomatch hc), hrest, rfl⟩
  rw [hnone] at hsome
  cases hsome

/-- A frame that is read back is plain. -/
theorem plain_of_decodes {frame : StackTraceElement}
    (h : toStackTraceElement (frameText frame) = .ok (some (named frame))) : Plain frame := by
  obtain ⟨file, digits, hpattern, hfile, hnumber⟩ := groups_of_element h
  have hfile : frame.fileName = some file := hfile
  obtain ⟨hline, hlazy⟩ := names_of_decodes hpattern
  obtain ⟨rest, hs, hmatch, hnames, hmin⟩ := lazily_eq_some_iff.mp hlazy
  obtain rfl := List.append_cancel_left hs
  have hcolon : lazily matchColon (file ++ colon :: (decimal frame.lineNumber ++ [closing])) =
      some (file, digits) := by
    obtain ⟨mark, rest, rfl | rfl, hs, hmatch⟩ := matchClosing_eq_some_iff.mp hmatch
    · obtain ⟨_, hrest, -⟩ := matchFile_eq_some_iff.mp hmatch
      rw [hrest] at hs
      exact absurd (List.cons.inj hs).1 (by decide)
    · obtain ⟨rest', hrest, hlazy⟩ := matchFile_eq_some_iff.mp hmatch
      rw [hrest] at hs
      have htail : fileText frame ++ [closing] = rest' :=
        (List.cons.inj (List.cons.inj (List.cons.inj hs).2).2).2
      rw [← htail, fileText, hfile] at hlazy
      simpa [formatted] using hlazy
  obtain ⟨rest, hs, hend, hfileLine, hfileMin⟩ := lazily_eq_some_iff.mp hcolon
  obtain rfl := List.append_cancel_left hs
  obtain ⟨hnonneg, rfl⟩ := matchColon_decimal.mp hend
  refine ⟨hnames, not_infix_of_shortest hnames hline hmin,
    ⟨file, hfile, ?_, hfileLine⟩, hnonneg, ?_⟩
  · exact notMem_of_shortest hfileLine (line_of_matchColon hend) hfileMin
  · obtain ⟨hne, hdigits⟩ := decimal_digits hnonneg
    have hparse := hnumber _ rfl
    rw [parseDigits_eq hne hdigits] at hparse
    split_ifs at hparse with hlt
    have hint : (number (decimal frame.lineNumber) : ℤ) = frame.lineNumber :=
      Except.ok.inj hparse
    omega

/-- A frame is read back from its line exactly where it is plain. -/
theorem frame_decodes_iff (frame : StackTraceElement) :
    toStackTraceElement (frameText frame) = .ok (some (named frame)) ↔ Plain frame :=
  ⟨plain_of_decodes, frame_decodes⟩

end JSEngine.Exceptions
