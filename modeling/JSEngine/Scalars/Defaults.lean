import JSEngine.Scalars.Values

/-!
# The coercions of a new context

The constructor of `JSEngineContext` registers a coercion for the classes of numbers, for
`Enum` and for `ByteBuffer`; the coercions themselves read numbers from texts and write a
`long` as one.

* `parseIntegral_decimal`: `Long.parseLong` reads what `Long.toString` writes;
* `valueOf_eq_iff`: names tell the constants of an enum type apart;
* `defaultJavaScriptToJava_nodes`, `defaultJavaToJavaScript_nodes`: the two tables.
-/

namespace JSEngine.Scalars

open JSEngine.Java JSEngine.Members JSEngine.Common JSEngine.Coerce

variable {E : EnumType}

/-! ## Texts of numbers -/

/-- `Long.toString()`. -/
def decimal (n : ℤ) : JString :=
  (if n < 0 then [0x2D#16] else []) ++
    if n = 0 then [0x30#16]
    else (Nat.digits 10 n.natAbs).reverse.map fun d => BitVec.ofNat 16 (0x30 + d)

/-- The value of the ASCII digits, the first one the most significant. -/
def readDigits (s : JString) : Option ℕ :=
  if s ≠ [] ∧ ∀ c ∈ s, 0x30 ≤ c.toNat ∧ c.toNat < 0x3A then
    some (s.foldl (fun n c => 10 * n + (c.toNat - 0x30)) 0)
  else none

/-- A decimal text with an optional sign. -/
def parseSigned (s : JString) : Option ℤ :=
  match s with
  | [] => none
  | c :: rest =>
    if c = 0x2D#16 then (readDigits rest).map fun n : ℕ => -(n : ℤ)
    else if c = 0x2B#16 then (readDigits rest).map Nat.cast
    else (readDigits s).map Nat.cast

/-- `Byte.parseByte`, `Long.parseLong` and so on, for a `w`-bit integer. -/
def parseIntegral (w : ℕ) (s : JString) : Option ℤ :=
  (parseSigned s).filter fun n => -2 ^ (w - 1) ≤ n ∧ n < 2 ^ (w - 1)

theorem readDigits_digits {n : ℕ} (hn : n ≠ 0) :
    readDigits ((Nat.digits 10 n).reverse.map fun d => BitVec.ofNat 16 (0x30 + d)) = some n := by
  have hlt : ∀ d ∈ Nat.digits 10 n, d < 10 := fun d hd => Nat.digits_lt_base (by decide) hd
  have hdigit : ∀ d, d < 10 → (BitVec.ofNat 16 (0x30 + d)).toNat = 0x30 + d := by
    intro d hd
    rw [BitVec.toNat_ofNat]
    omega
  unfold readDigits
  rw [if_pos, List.foldl_map, List.foldl_reverse]
  · congr 1
    conv_rhs => rw [← Nat.ofDigits_digits 10 n, Nat.ofDigits_eq_foldr]
    revert hlt
    generalize Nat.digits 10 n = ds
    intro hlt
    induction ds with
    | nil => rfl
    | cons d ds ih =>
      have hd := hdigit d (hlt d List.mem_cons_self)
      rw [List.foldr_cons, List.foldr_cons, ih fun x hx => hlt x (List.mem_cons_of_mem _ hx), hd]
      simp only [Nat.cast_id]
      omega
  · refine ⟨by simpa [Nat.digits_eq_nil_iff_eq_zero] using hn, ?_⟩
    intro c hc
    obtain ⟨d, hd, rfl⟩ := List.mem_map.mp hc
    have hd := hlt d (List.mem_reverse.mp hd)
    rw [hdigit d hd]
    omega

/-- A text of digits has no sign. -/
theorem parseSigned_of_readDigits {s : JString} {n : ℕ} (h : readDigits s = some n) :
    parseSigned s = some (n : ℤ) := by
  cases s with
  | nil => simp [readDigits] at h
  | cons c rest =>
    have hc : 0x30 ≤ c.toNat := by
      unfold readDigits at h
      split_ifs at h with hs
      exact (hs.2 c List.mem_cons_self).1
    have hminus : c ≠ 0x2D#16 := by
      rintro rfl
      exact absurd hc (by decide)
    have hplus : c ≠ 0x2B#16 := by
      rintro rfl
      exact absurd hc (by decide)
    simp only [parseSigned, if_neg hminus, if_neg hplus, h]
    rfl

theorem parseSigned_decimal (n : ℤ) : parseSigned (decimal n) = some n := by
  unfold decimal
  by_cases h0 : n = 0
  · subst h0
    have hzero : readDigits [0x30#16] = some 0 := by simp [readDigits]
    rw [if_neg (by decide), if_pos rfl, List.nil_append, parseSigned_of_readDigits hzero]
    rfl
  · have hdigits := readDigits_digits (n := n.natAbs) (by omega)
    rw [if_neg h0]
    split_ifs with hneg
    · rw [List.singleton_append]
      simp only [parseSigned, if_true, hdigits]
      show some (-(n.natAbs : ℤ)) = some n
      congr 1
      omega
    · rw [List.nil_append, parseSigned_of_readDigits hdigits]
      congr 1
      omega

/-- Different integers have different texts. -/
theorem decimal_inj {m n : ℤ} : decimal m = decimal n ↔ m = n := by
  constructor
  · intro h
    have hparsed := parseSigned_decimal m
    rw [h, parseSigned_decimal n] at hparsed
    exact (Option.some.inj hparsed).symm
  · rintro rfl
    rfl

/-- `Long.parseLong` reads what `Long.toString` writes. -/
theorem parseIntegral_decimal {w : ℕ} {n : ℤ} (h1 : -2 ^ (w - 1) ≤ n) (h2 : n < 2 ^ (w - 1)) :
    parseIntegral w (decimal n) = some n := by
  unfold parseIntegral
  rw [parseSigned_decimal, Option.filter_some, if_pos (by simpa using ⟨h1, h2⟩)]

/-! ## The coercions of a new context -/

/-- What no scalar reaches: reading a floating-point text, the copy of a
    `ByteBuffer`, and the text of an object that is no string. -/
structure Unreached (E : EnumType) where
  parseFloat : JString → Except Throwable (Value E)
  parseDouble : JString → Except Throwable (Value E)
  copyBuffer : Coercion (Value E)
  text : Value E → JString

variable (r : Unreached E)

/-- A parsed number, boxed. -/
def parsed (n : Option ℤ) (box : ℤ → Value E) : Except Throwable (Value E) :=
  match n with
  | some n => .ok (box n)
  | none => .error ⟨"java.lang.NumberFormatException", ""⟩

/-- `Byte.parseByte(s)` and so on. -/
def parse (s : JString) : NumberType → Except Throwable (Value E)
  | .byte => parsed (parseIntegral 8 s) fun n => .byte (BitVec.ofInt 8 n)
  | .short => parsed (parseIntegral 16 s) fun n => .short (BitVec.ofInt 16 n)
  | .int => parsed (parseIntegral 32 s) fun n => .int (BitVec.ofInt 32 n)
  | .long => parsed (parseIntegral 64 s) fun n => .long (BitVec.ofInt 64 n)
  | .float => r.parseFloat s
  | .double => r.parseDouble s

/-- `o instanceof Number ? … : o instanceof String ? … : o` (lines 467–490). -/
def toNumber (t : NumberType) : Coercion (Value E) := fun _ o =>
  match o with
  | none => .ok none
  | some (.string s) => (parse r s t).map some
  | some o => .ok (some (numberValue t o))

/-- The same for `Byte.class`, where what is left is cast to `Byte` (line 466). -/
def toByte : Coercion (Value E) := fun clazz o =>
  match o with
  | none => .ok none
  | some (.string s) => toNumber r .byte clazz (some (.string s))
  | some o => if o.number.isSome then toNumber r .byte clazz (some o) else .error classCastException

/-- `Enum.valueOf(clazz, name)`. -/
def valueOf (clazz : Class) (name : JString) : Except Throwable (Value E) :=
  match (List.finRange E.constants.length).find? fun i =>
      clazz == E.clazz && (E.constants.get i).name == name with
  | some i => .ok (.constant i)
  | none => .error ⟨"java.lang.IllegalArgumentException", ""⟩

/-- Names tell constants apart. -/
theorem valueOf_eq_iff {i : Fin E.constants.length} {name : JString} :
    valueOf E.clazz name = .ok (.constant i) ↔ (E.constants.get i).name = name := by
  have hinj : ∀ j, (E.constants.get j).name = (E.constants.get i).name → j = i := by
    intro j hj
    have hnames := List.nodup_iff_injective_get.mp E.nodup
    have hget := @hnames (j.cast (by simp)) (i.cast (by simp)) (by simpa using hj)
    exact Fin.ext (by simpa using congrArg Fin.val hget)
  unfold valueOf
  cases hf : (List.finRange E.constants.length).find? fun i =>
      E.clazz == E.clazz && (E.constants.get i).name == name with
  | none =>
    have hne := List.find?_eq_none.mp hf i (List.mem_finRange i)
    simpa using hne
  | some j =>
    have hj : (E.constants.get j).name = name := by simpa using List.find?_some hf
    constructor
    · intro h
      obtain rfl : j = i := by simpa using h
      exact hj
    · intro h
      rw [hinj j (hj.trans h.symm)]

/-- `Enum.valueOf(clazz, o.toString())` (lines 459–463). -/
def toEnum : Coercion (Value E) := fun clazz o =>
  match o with
  | none => .ok none
  | some (.string s) => (valueOf clazz s).map some
  | some o => (valueOf clazz (r.text o)).map some

/-- `o.intValue()` of a `Byte` or `Short` (lines 469–475). -/
def intValue : Coercion (Value E) := fun _ o =>
  match o with
  | some (.byte n) => .ok (some (numberValue .int (.byte n)))
  | some (.short n) => .ok (some (numberValue .int (.short n)))
  | some _ => .error classCastException
  | none => .error nullPointerException

/-- `o.toString()` of a `Long` (lines 485–488). -/
def longText : Coercion (Value E) := fun _ o =>
  match o with
  | some (.long n) => .ok (some (.string (decimal n.toInt)))
  | some _ => .error classCastException
  | none => .error nullPointerException

/-- `o.doubleValue()` of a `Float` (lines 493–494). -/
def doubleValue : Coercion (Value E) := fun _ o =>
  match o with
  | some (.float x) => .ok (some (numberValue .double (.float x)))
  | some _ => .error classCastException
  | none => .error nullPointerException

/-- `o.toString()` of an enum constant (line 500). -/
def enumText : Coercion (Value E) := fun _ o =>
  match o with
  | some (.constant i) =>
    match (E.constants.get i).toString with
    | .returns s => .ok (s.map Value.string)
    | .throws e => .error e
  | some _ => .error classCastException
  | none => .error nullPointerException

/-- The constructor `JSEngineContext(useQuickJS)` (lines 457–513). -/
def defaults (useQuickJS : Bool) : JSEngineContext (Value E) :=
  let c : JSEngineContext (Value E) := {}
  let c := c.putJavaScriptToJavaCoercion LibraryClass.enum.toClass (some (toEnum r))
  let c := c.putJavaScriptToJavaCoercion NumberType.byte.boxed (some (toByte r))
  let c := c.putJavaScriptToJavaCoercion NumberType.byte.primitive (some (toNumber r .byte))
  let c := c.putJavaToJavaScriptCoercion NumberType.byte.primitive (some intValue)
  let c := c.putJavaToJavaScriptCoercion NumberType.byte.boxed (some intValue)
  let c := c.putJavaScriptToJavaCoercion NumberType.short.boxed (some (toNumber r .short))
  let c := c.putJavaScriptToJavaCoercion NumberType.short.primitive (some (toNumber r .short))
  let c := c.putJavaToJavaScriptCoercion NumberType.short.primitive (some intValue)
  let c := c.putJavaToJavaScriptCoercion NumberType.short.boxed (some intValue)
  let c := c.putJavaScriptToJavaCoercion NumberType.int.boxed (some (toNumber r .int))
  let c := c.putJavaScriptToJavaCoercion NumberType.int.primitive (some (toNumber r .int))
  let c := c.putJavaScriptToJavaCoercion NumberType.long.boxed (some (toNumber r .long))
  let c := c.putJavaScriptToJavaCoercion NumberType.long.primitive (some (toNumber r .long))
  let c :=
    if useQuickJS then c
    else (c.putJavaToJavaScriptCoercion NumberType.long.primitive (some longText)
      ).putJavaToJavaScriptCoercion NumberType.long.boxed (some longText)
  let c := c.putJavaScriptToJavaCoercion NumberType.float.boxed (some (toNumber r .float))
  let c := c.putJavaScriptToJavaCoercion NumberType.float.primitive (some (toNumber r .float))
  let c := c.putJavaToJavaScriptCoercion NumberType.float.primitive (some doubleValue)
  let c := c.putJavaToJavaScriptCoercion NumberType.float.boxed (some doubleValue)
  let c := c.putJavaScriptToJavaCoercion NumberType.double.boxed (some (toNumber r .double))
  let c := c.putJavaScriptToJavaCoercion NumberType.double.primitive (some (toNumber r .double))
  let c := c.putJavaToJavaScriptCoercion LibraryClass.enum.toClass (some enumText)
  c.putJavaToJavaScriptCoercion LibraryClass.byteBuffer.toClass (some r.copyBuffer)

/-! ## The tables -/

/-- The coercions to Java, in the order of registration. -/
def defaultJavaScriptToJava : List (LibraryClass × Coercion (Value E)) :=
  [(.enum, toEnum r),
    (.boxed .byte, toByte r), (.primitive .byte, toNumber r .byte),
    (.boxed .short, toNumber r .short), (.primitive .short, toNumber r .short),
    (.boxed .int, toNumber r .int), (.primitive .int, toNumber r .int),
    (.boxed .long, toNumber r .long), (.primitive .long, toNumber r .long),
    (.boxed .float, toNumber r .float), (.primitive .float, toNumber r .float),
    (.boxed .double, toNumber r .double), (.primitive .double, toNumber r .double)]

/-- The coercions to JavaScript up to the one of `Enum.class`. -/
def numberJavaToJavaScript (E : EnumType) : Bool → List (LibraryClass × Coercion (Value E))
  | true =>
    [(.primitive .byte, intValue), (.boxed .byte, intValue),
      (.primitive .short, intValue), (.boxed .short, intValue),
      (.primitive .float, doubleValue), (.boxed .float, doubleValue)]
  | false =>
    [(.primitive .byte, intValue), (.boxed .byte, intValue),
      (.primitive .short, intValue), (.boxed .short, intValue),
      (.primitive .long, longText), (.boxed .long, longText),
      (.primitive .float, doubleValue), (.boxed .float, doubleValue)]

/-- The coercions to JavaScript, in the order of registration. -/
def defaultJavaToJavaScript (useQuickJS : Bool) : List (LibraryClass × Coercion (Value E)) :=
  numberJavaToJavaScript E useQuickJS ++ [(.enum, enumText), (.byteBuffer, r.copyBuffer)]

/-- An entry of a table. -/
def node (e : LibraryClass × Coercion (Value E)) : JRef Class × JRef (Coercion (Value E)) :=
  (some e.1.toClass, some e.2)

theorem fst_map_node (entries : List (LibraryClass × Coercion (Value E))) :
    (entries.map node).map Prod.fst = (entries.map Prod.fst).map fun a => some a.toClass := by
  rw [List.map_map, List.map_map]
  rfl

theorem nodup_map_node {entries : List (LibraryClass × Coercion (Value E))}
    (h : (entries.map Prod.fst).Nodup) : ((entries.map node).map Prod.fst).Nodup := by
  rw [fst_map_node]
  exact h.map fun a b hab => LibraryClass.toClass_injective (Option.some.inj hab)

/-- Registering distinct classes in turn lists them in that order. -/
theorem nodes_foldl_put {entries : List (LibraryClass × Coercion (Value E))}
    (h : (entries.map Prod.fst).Nodup) :
    ((entries.map node).foldl (fun m e => (m.put (· == e.1) e.1 e.2).2)
      ({} : Coercions (Value E))).nodes = entries.map node := by
  rw [HashMap.foldl_put_nodes]
  · rfl
  · exact nodup_map_node h

theorem defaultJavaScriptToJava_nodup : ((defaultJavaScriptToJava r).map Prod.fst).Nodup := by
  show [LibraryClass.enum, .boxed .byte, .primitive .byte, .boxed .short, .primitive .short,
    .boxed .int, .primitive .int, .boxed .long, .primitive .long, .boxed .float,
    .primitive .float, .boxed .double, .primitive .double].Nodup
  decide

/-- The classes with a coercion to JavaScript. -/
def registered : Bool → List LibraryClass
  | true =>
    [.primitive .byte, .boxed .byte, .primitive .short, .boxed .short, .primitive .float,
      .boxed .float, .enum, .byteBuffer]
  | false =>
    [.primitive .byte, .boxed .byte, .primitive .short, .boxed .short, .primitive .long,
      .boxed .long, .primitive .float, .boxed .float, .enum, .byteBuffer]

theorem defaultJavaToJavaScript_fst (useQuickJS : Bool) :
    (defaultJavaToJavaScript r useQuickJS).map Prod.fst = registered useQuickJS := by
  cases useQuickJS <;> rfl

theorem mem_defaultJavaToJavaScript_intValue {t : NumberType} (ht : t ∈ [NumberType.byte, .short])
    (useQuickJS : Bool) : (.boxed t, intValue) ∈ defaultJavaToJavaScript r useQuickJS := by
  rcases List.mem_pair.mp ht with rfl | rfl <;>
    cases useQuickJS <;> simp [defaultJavaToJavaScript, numberJavaToJavaScript]

theorem defaultJavaToJavaScript_nodup (useQuickJS : Bool) :
    ((defaultJavaToJavaScript r useQuickJS).map Prod.fst).Nodup := by
  rw [defaultJavaToJavaScript_fst]
  revert useQuickJS
  decide

theorem defaultJavaScriptToJava_nodes (useQuickJS : Bool) :
    (defaults r useQuickJS).JavaScriptToJavaCoercions.nodes =
      (defaultJavaScriptToJava r).map node := by
  rw [← nodes_foldl_put (defaultJavaScriptToJava_nodup r)]
  cases useQuickJS <;> rfl

theorem defaultJavaToJavaScript_nodes (useQuickJS : Bool) :
    (defaults r useQuickJS).JavaToJavascriptCoercions.nodes =
      (defaultJavaToJavaScript r useQuickJS).map node := by
  rw [← nodes_foldl_put (defaultJavaToJavaScript_nodup r useQuickJS)]
  cases useQuickJS <;> rfl

/-- A registered coercion is found. -/
theorem get_of_node {coerce : Coercions (Value E)}
    {entries : List (LibraryClass × Coercion (Value E))} (hnodes : coerce.nodes = entries.map node)
    (hnodup : (entries.map Prod.fst).Nodup) {a : LibraryClass} {coercion : Coercion (Value E)}
    (h : (a, coercion) ∈ entries) : coerce.get a.toClass = some coercion := by
  apply get_of_mem
  · show (coerce.nodes.map Prod.fst).Nodup
    rw [hnodes]
    exact nodup_map_node hnodup
  · rw [hnodes]
    exact List.mem_map_of_mem (f := node) h

end JSEngine.Scalars
