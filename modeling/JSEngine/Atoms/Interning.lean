import JSEngine.Common.Machine
import JSEngine.Atoms.Bytes

/-!
# Runs of the table of atoms

The program has atoms made of strings, numbers and symbols, keeps references to them, as atoms and
as values, and gives them up again. Each reference has a name, for what it has been made of.

* `Interned.eq_iff`: references are the same exactly where their names are;
* `Interned.step`: each step of the program is possible, and keeps the names right.
-/

namespace JSEngine.Atoms

open JSEngine.Common
open JSEngine.Java (JString)
open JSEngine.Scalars (JSString JS_NewStringLen decimal decimal_inj)

/-! ## The functions of the program -/

namespace JSRuntime

/-- `JS_NewAtomInt64` (lines 2978-2994), and `JS_NewAtomUInt32` (lines 2962-2976) for the numbers of
    32 bits; `string` says whether there is room for the string. -/
def JS_NewAtomInt64 (JS_ATOM_END : ℕ) (rt : JSRuntime) (n : ℤ) (string : Bool) (m : Memory) :
    Option (JSRuntime × ℕ) :=
  if 0 ≤ n ∧ n ≤ JS_ATOM_MAX_INT then some (rt, atomFromUInt32 n.toNat)
  else if string then rt.newAtom JS_ATOM_END (.string (.ofUnits (decimal n)) 1) .STRING m
  else some (rt, 0)

/-- `JS_NewSymbolFromAtom` (lines 3008-3020). -/
def JS_NewSymbolFromAtom (JS_ATOM_END : ℕ) (rt : JSRuntime) (descr : ℕ) (atom_type : AtomType)
    (m : Memory) : Option (JSRuntime × ℕ) :=
  if 2 ^ 31 ≤ descr ∨ rt.atom_size ≤ descr then none
  else (rt.retain descr).bind fun rt => rt.newAtom JS_ATOM_END (.entry descr) atom_type m

/-- `JS_AtomToValue` (lines 3074-3106): the value of a number is a new string. -/
def JS_AtomToValue (rt : JSRuntime) (atom : ℕ) : Option JSRuntime :=
  if 2 ^ 31 ≤ atom then some rt else if rt.atom_size ≤ atom then none else rt.retain atom

/-- `JS_ValueToAtom` for a symbol (lines 7793-7796). -/
def JS_ValueToAtom (JS_ATOM_END : ℕ) (rt : JSRuntime) (i : ℕ) : Option (JSRuntime × ℕ) :=
  (rt.js_get_atom_index i).bind fun v => (rt.JS_DupAtom JS_ATOM_END v).map fun rt => (rt, v)

end JSRuntime

/-! ## The machine -/

/-- What an atom or a value stands for: the text of a string or a global symbol, or a symbol of its
    own. -/
inductive Name
  | text (units : JString) (atom_type : AtomType)
  | symbol (k : ℕ)
  deriving DecidableEq

/-- A reference of the program, with what it has been made of. -/
abbrev Reference := ℕ × Name

/-- The table, the references of the program as atoms and as values, and how many symbols there have
    been. -/
structure Program where
  rt : JSRuntime
  atoms : List Reference
  values : List Reference
  symbols : ℕ

/-- A string that an atom is made of: one with `refs` references that is not an atom yet, the value
    of an atom, or none. -/
inductive Text
  | string (str : JSString) (refs : ℕ)
  | value (r : Reference)
  | none

def Text.source : Text → Source
  | .string str refs => .string str refs
  | .value r => .entry r.1
  | .none => .null

/-- The references that are left to a string that has become an atom. -/
def Text.left (rt rt' : JSRuntime) (v : ℕ) : Text → ℕ
  | .string _ refs => if (rt.get v).isNone ∧ (rt'.get v).isSome then refs - 1 else 0
  | .value _ | .none => 0

/-- What the program does. -/
inductive Action
  | newAtomStr (text : Text) (m : Memory)
  | newAtomInt64 (n : ℤ) (string : Bool) (m : Memory)
  | newAtomLen (str : List ℕ) (type : AtomType) (string : Bool) (m : Memory)
  | newSymbol (text : Text) (atom_type : AtomType) (m : Memory)
  | newSymbolFromAtom (r : Reference) (atom_type : AtomType) (m : Memory)
  | dupAtom (r : Reference)
  | freeAtom (r : Reference)
  | atomToValue (r : Reference)
  | valueToAtom (r : Reference)
  | dupValue (r : Reference)
  | freeValue (r : Reference)

namespace Program

/-- The reference to a string is given away. -/
def give (s : Program) : Text → Program
  | .value r => { s with values := s.values.erase r }
  | .string _ _ | .none => s

/-- The program gets an atom, or a value if `atom` is not set, unless the call has failed. -/
def receive (s : Program) (text : Text) (name : Name) (atom : Bool) (r : JSRuntime × ℕ) : Program where
  rt := r.1
  atoms := (s.give text).atoms ++ if r.2 ≠ 0 ∧ atom then [(r.2, name)] else []
  values := (s.give text).values ++
    if r.2 = 0 then []
    else List.replicate (text.left s.rt r.1 r.2 + if atom then 0 else 1) (r.2, name)
  symbols := s.symbols + 1

/-- What a new symbol stands for. -/
def symbolName (s : Program) (units : JString) : AtomType → Name
  | .SYMBOL | .PRIVATE => .symbol s.symbols
  | .STRING => .text units .STRING
  | .GLOBAL_SYMBOL => .text units .GLOBAL_SYMBOL

/-- What the atom of a string stands for. -/
def stringName (s : Program) (str : JSString) (type : AtomType) : Name :=
  if (is_num_string str).any (· ≤ JS_ATOM_MAX_INT) then .text str.units .STRING
  else s.symbolName str.units type

/-- What the atom of a C string stands for: the characters of its bytes, if it is found. -/
def bytesName (JS_ATOM_END : ℕ) (s : Program) (str : List ℕ) (type : AtomType) : Name :=
  if str.head?.any JSRuntime.is_digit then s.stringName (JS_NewStringLen str) type
  else
    match s.rt.FindAtom JS_ATOM_END str with
    | some (_, _ + 1) => .text (latin1 str) .STRING
    | some (_, 0) | none => s.stringName (JS_NewStringLen str) type

end Program

/-- The steps of the program. -/
def step (JS_ATOM_END : ℕ) (s : Program) : Action → Option Program
  | .newAtomStr text m =>
    (s.rt.text text.source).bind fun str =>
      (s.rt.JS_NewAtomStr JS_ATOM_END text.source m).map
        (s.receive text (.text str.units .STRING) true)
  | .newAtomInt64 n string m =>
    (s.rt.JS_NewAtomInt64 JS_ATOM_END n string m).map
      (s.receive (.string (.ofUnits (decimal n)) 1) (.text (decimal n) .STRING) true)
  | .newAtomLen str type string m =>
    (s.rt.JS_NewAtomLen2 JS_ATOM_END str type string m).map
      (s.receive (.string (JS_NewStringLen str) 1) (s.bytesName JS_ATOM_END str type) true)
  | .newSymbol text atom_type m =>
    (s.rt.text text.source).bind fun str =>
      (s.rt.newAtom JS_ATOM_END text.source atom_type m).map
        (s.receive text (s.symbolName str.units atom_type) false)
  | .newSymbolFromAtom r atom_type m =>
    (s.rt.text (.entry r.1)).bind fun str =>
      (s.rt.JS_NewSymbolFromAtom JS_ATOM_END r.1 atom_type m).map
        (s.receive .none (s.symbolName str.units atom_type) false)
  | .dupAtom r =>
    (s.rt.JS_DupAtom JS_ATOM_END r.1).map fun rt => { s with rt := rt, atoms := r :: s.atoms }
  | .freeAtom r =>
    (s.rt.JS_FreeAtom JS_ATOM_END r.1).map fun rt =>
      -- predefined atoms and numbers can be used without a reference
      { s with rt := rt, atoms := if isConst JS_ATOM_END r.1 then s.atoms else s.atoms.erase r }
  | .atomToValue r =>
    (s.rt.JS_AtomToValue r.1).map fun rt =>
      { s with rt := rt, values := if 2 ^ 31 ≤ r.1 then s.values else r :: s.values }
  | .valueToAtom r =>
    (s.rt.JS_ValueToAtom JS_ATOM_END r.1).map fun p =>
      { s with rt := p.1, atoms := (p.2, r.2) :: s.atoms }
  | .dupValue r => (s.rt.retain r.1).map fun rt => { s with rt := rt, values := r :: s.values }
  | .freeValue r => (s.rt.release r.1).map fun rt => { s with rt := rt, values := s.values.erase r }

/-- The program uses references that it has. -/
def Allowed (s : Program) : Action → Prop
  | .newAtomStr (.string _ refs) _ => refs ≠ 0
  | .newAtomStr (.value r) _ => r ∈ s.values
  | .newAtomStr .none _ => False
  | .newAtomInt64 _ _ _ => True
  | .newAtomLen str type _ _ => (∀ b ∈ str, b < 256) ∧ (type = .STRING ∨ type = .PRIVATE)
  | .newSymbol (.string _ refs) atom_type _ => refs ≠ 0 ∧ atom_type ≠ .STRING
  | .newSymbol (.value r) atom_type _ => r ∈ s.values ∧ atom_type ≠ .STRING
  | .newSymbol .none atom_type _ => atom_type = .SYMBOL ∨ atom_type = .PRIVATE
  | .newSymbolFromAtom r atom_type _ => r ∈ s.atoms ∧ r.1 < 2 ^ 31 ∧ atom_type ≠ .STRING
  | .dupAtom r | .freeAtom r | .atomToValue r => r ∈ s.atoms
  | .valueToAtom r => r ∈ s.values ∧ ∀ units, r.2 ≠ .text units .STRING
  | .dupValue r | .freeValue r => r ∈ s.values

/-! ## The invariant -/

namespace Program

/-- How often an entry is referred to as an atom. The runtime keeps the predefined atoms, and does
    not count other references to them. -/
def atomRefs (JS_ATOM_END : ℕ) (s : Program) (i : ℕ) : ℕ :=
  if isConst JS_ATOM_END i then if i ≠ 0 ∧ i < JS_ATOM_END then 1 else 0
  else (s.atoms.map Prod.fst).count i

/-- How often an entry is referred to. -/
def refs (JS_ATOM_END : ℕ) (s : Program) (i : ℕ) : ℕ :=
  (s.values.map Prod.fst).count i + s.atomRefs JS_ATOM_END i

end Program

/-- The atom of a number stands for its text. -/
def IsNumber (r : Reference) : Prop :=
  ∃ n < 2 ^ 31, r = (atomFromUInt32 n, .text (decimal (n : ℕ)) .STRING)

/-- Every entry has a name, and every reference that of its entry. -/
structure Interned (JS_ATOM_END : ℕ) (s : Program) (name : ℕ → Name) : Prop where
  counted : Counted s.rt (s.refs JS_ATOM_END)
  text : ∀ i units type, s.rt.label i = some (units, type) → type ≠ .SYMBOL →
    name i = .text units type
  symbol : ∀ i units, s.rt.label i = some (units, .SYMBOL) → ∃ k < s.symbols, name i = .symbol k
  distinct : ∀ i j k, (s.rt.label i).isSome → (s.rt.label j).isSome → name i = .symbol k →
    name j = .symbol k → i = j
  not_number : ∀ i units, s.rt.label i = some (units, .STRING) →
    ∀ n : ℕ, n < 2 ^ 31 → units ≠ decimal n
  const : ∀ i units, s.rt.label i = some (units, .GLOBAL_SYMBOL) → JS_ATOM_END ≤ i
  values : ∀ r ∈ s.values, name r.1 = r.2
  atoms : ∀ r ∈ s.atoms, IsNumber r ∨ r.1 ≠ 0 ∧ r.1 < 2 ^ 31 ∧ name r.1 = r.2

theorem isConst_iff {JS_ATOM_END i : ℕ} (hi : i < 2 ^ 31) :
    isConst JS_ATOM_END i = true ↔ i < JS_ATOM_END := by
  rw [isConst, Bool.or_eq_true, decide_eq_true_eq, decide_eq_true_eq]
  omega

namespace Interned

variable {JS_ATOM_END : ℕ} {s s' : Program} {name name' : ℕ → Name} {r : Reference} {i : ℕ}

theorem refs_of_value (JS_ATOM_END : ℕ) (s : Program) (hr : r ∈ s.values) : s.refs JS_ATOM_END r.1 ≠ 0 := by
  have : 0 < (s.values.map Prod.fst).count r.1 :=
    List.count_pos_iff.mpr (List.mem_map_of_mem hr)
  rw [Program.refs]
  omega

theorem refs_of_atom (JS_ATOM_END : ℕ) (hr : r ∈ s.atoms) (h0 : r.1 ≠ 0) (hlt : r.1 < 2 ^ 31) :
    s.refs JS_ATOM_END r.1 ≠ 0 := by
  have : 0 < (s.atoms.map Prod.fst).count r.1 := List.count_pos_iff.mpr (List.mem_map_of_mem hr)
  rw [Program.refs, Program.atomRefs]
  split_ifs with hc h
  · omega
  · exact absurd ⟨h0, (isConst_iff hlt).mp hc⟩ h
  · omega

/-- An entry is one of the array. -/
theorem lt_of_refs (h : Interned JS_ATOM_END s name) (hi : s.refs JS_ATOM_END i ≠ 0) :
    i ≠ 0 ∧ i < 2 ^ 30 := by
  obtain ⟨h0, p, hp, -⟩ := h.counted.exists_get hi
  exact ⟨h0, h.counted.lt_of_get hp⟩

/-- A reference is the atom of a number, or to an entry with its name. -/
theorem number_or_entry (h : Interned JS_ATOM_END s name) (hr : r ∈ s.atoms ++ s.values) :
    IsNumber r ∨ s.refs JS_ATOM_END r.1 ≠ 0 ∧ name r.1 = r.2 := by
  obtain hr | hr := List.mem_append.mp hr
  · exact (h.atoms r hr).imp_right fun ⟨h0, hlt, hname⟩ => ⟨refs_of_atom _ hr h0 hlt, hname⟩
  · exact .inr ⟨refs_of_value _ s hr, h.values r hr⟩

/-- **References are the same where their names are.** -/
theorem eq_iff (h : Interned JS_ATOM_END s name) {a b : Reference}
    (ha : a ∈ s.atoms ++ s.values) (hb : b ∈ s.atoms ++ s.values) : a.1 = b.1 ↔ a.2 = b.2 := by
  -- the entries with a name are told apart by it
  have hentry : ∀ i j, s.refs JS_ATOM_END i ≠ 0 → s.refs JS_ATOM_END j ≠ 0 → name i = name j →
      i = j := by
    intro i j hi hj hij
    obtain ⟨⟨u, t⟩, hu⟩ := Option.isSome_iff_exists.mp (h.counted.label_isSome.mpr hi)
    obtain ⟨⟨w, q⟩, hw⟩ := Option.isSome_iff_exists.mp (h.counted.label_isSome.mpr hj)
    by_cases ht : t = .SYMBOL
    · subst ht
      obtain ⟨k, -, hk⟩ := h.symbol i u hu
      exact h.distinct i j k (hu ▸ rfl) (hw ▸ rfl) hk (hij ▸ hk)
    · have hname := h.text i u t hu ht
      by_cases hq : q = .SYMBOL
      · subst hq
        obtain ⟨k, -, hk⟩ := h.symbol j w hw
        rw [hname, hk] at hij
        cases hij
      · rw [hname, h.text j w q hw hq] at hij
        cases hij
        exact h.counted.label_unique hu hw ht
  -- no entry has the name of a number
  have hnumber : ∀ a b : Reference, IsNumber a → s.refs JS_ATOM_END b.1 ≠ 0 → name b.1 = b.2 →
      a.1 ≠ b.1 ∧ a.2 ≠ b.2 := by
    rintro _ b ⟨n, hn, rfl⟩ hb hname
    refine ⟨fun heq => ?_, fun heq => ?_⟩
    · have := (h.lt_of_refs hb).2
      rw [← heq, atomFromUInt32_eq hn] at this
      omega
    · obtain ⟨⟨u, t⟩, hu⟩ := Option.isSome_iff_exists.mp (h.counted.label_isSome.mpr hb)
      rw [← hname] at heq
      by_cases ht : t = .SYMBOL
      · subst ht
        obtain ⟨k, -, hk⟩ := h.symbol b.1 u hu
        rw [hk] at heq
        cases heq
      · rw [h.text b.1 u t hu ht] at heq
        cases heq
        exact h.not_number b.1 _ hu n hn rfl
  obtain ha | ⟨ha, hna⟩ := h.number_or_entry ha <;>
    obtain hb | ⟨hb, hnb⟩ := h.number_or_entry hb
  · obtain ⟨m, hm, rfl⟩ := ha
    obtain ⟨n, hn, rfl⟩ := hb
    rw [atomFromUInt32_eq hm, atomFromUInt32_eq hn]
    constructor
    · intro heq
      obtain rfl : m = n := by omega
      rfl
    · intro heq
      have heq := decimal_inj.mp (Name.text.inj heq).1
      omega
  · exact ⟨fun heq => absurd heq (hnumber a b ha hb hnb).1,
      fun heq => absurd heq (hnumber a b ha hb hnb).2⟩
  · exact ⟨fun heq => absurd heq.symm (hnumber b a hb ha hna).1,
      fun heq => absurd heq.symm (hnumber b a hb ha hna).2⟩
  · rw [← hna, ← hnb]
    exact ⟨congrArg name, hentry _ _ ha hb⟩

/-- Fewer references, or others to entries that stay. -/
theorem stays (h : Interned JS_ATOM_END s name) (hcounted : Counted s'.rt (s'.refs JS_ATOM_END))
    (hstays : Stays (s'.refs JS_ATOM_END) s.rt s'.rt) (hsymbols : s.symbols ≤ s'.symbols)
    (hvalues : ∀ r ∈ s'.values, name r.1 = r.2)
    (hatoms : ∀ r ∈ s'.atoms, IsNumber r ∨ r.1 ≠ 0 ∧ r.1 < 2 ^ 31 ∧ name r.1 = r.2) :
    Interned JS_ATOM_END s' name := by
  have hlabel : ∀ i l, s'.rt.label i = some l → s.rt.label i = some l := fun i l hl => by
    rw [← hstays i (hcounted.ne_zero_of_label hl), hl]
  have hsome : ∀ i, (s'.rt.label i).isSome → (s.rt.label i).isSome := fun i hi => by
    obtain ⟨l, hl⟩ := Option.isSome_iff_exists.mp hi
    exact hlabel i l hl ▸ rfl
  exact
    { counted := hcounted
      text := fun i units type hl => h.text i units type (hlabel i _ hl)
      symbol := fun i units hl => by
        obtain ⟨k, hk, hname⟩ := h.symbol i units (hlabel i _ hl)
        exact ⟨k, hk.trans_le hsymbols, hname⟩
      distinct := fun i j k hi hj => h.distinct i j k (hsome i hi) (hsome j hj)
      not_number := fun i units hl => h.not_number i units (hlabel i _ hl)
      const := fun i units hl => h.const i units (hlabel i _ hl)
      values := hvalues
      atoms := hatoms }

/-- What a new atom with a label stands for. -/
structure Named (s : Program) (l : Label) (n : Name) : Prop where
  text : l.2 ≠ .SYMBOL → n = .text l.1 l.2
  symbol : l.2 = .SYMBOL → n = .symbol s.symbols
  not_number : l.2 = .STRING → ∀ n : ℕ, n < 2 ^ 31 → l.1 ≠ decimal n

/-- One more entry, or a reference to one that is found. -/
theorem gain (h : Interned JS_ATOM_END s name) {v : ℕ} {l : Label} {n : Name}
    (hcounted : Counted s'.rt (s'.refs JS_ATOM_END))
    (hstays : ∀ i ≠ v, s'.refs JS_ATOM_END i ≠ 0 → s'.rt.label i = s.rt.label i)
    (hv : s'.rt.label v = some l) (hn : Named s l n)
    (hconst : l.2 = .GLOBAL_SYMBOL → JS_ATOM_END ≤ v)
    (hsymbols : s'.symbols = s.symbols + 1)
    (hvalues : ∀ r ∈ s'.values, Function.update name v n r.1 = r.2)
    (hatoms : ∀ r ∈ s'.atoms,
      IsNumber r ∨ r.1 ≠ 0 ∧ r.1 < 2 ^ 31 ∧ Function.update name v n r.1 = r.2) :
    Interned JS_ATOM_END s' (Function.update name v n) := by
  -- an entry is the new one or an old one
  have hlabel : ∀ i k, s'.rt.label i = some k → i = v ∧ k = l ∨ i ≠ v ∧ s.rt.label i = some k := by
    intro i k hk
    by_cases hi : i = v
    · subst hi
      exact .inl ⟨rfl, Option.some.inj (hk.symm.trans hv)⟩
    · exact .inr ⟨hi, by rw [← hstays i hi (hcounted.ne_zero_of_label hk), hk]⟩
  have hold : ∀ i k, i ≠ v → (s'.rt.label i).isSome → name i = .symbol k → k < s.symbols := by
    intro i k hi hsome hk
    obtain ⟨⟨u, t⟩, hu⟩ := Option.isSome_iff_exists.mp hsome
    obtain ⟨rfl, -⟩ | ⟨-, hu⟩ := hlabel i _ hu
    · exact absurd rfl hi
    · by_cases ht : t = .SYMBOL
      · subst ht
        obtain ⟨k', hk', hname⟩ := h.symbol i u hu
        rw [hk] at hname
        cases hname
        exact hk'
      · rw [h.text i u t hu ht] at hk
        cases hk
  have hnew : ∀ k, n = .symbol k → k = s.symbols := by
    intro k hk
    by_cases ht : l.2 = .SYMBOL
    · rw [hn.symbol ht] at hk
      cases hk
      rfl
    · rw [hn.text ht] at hk
      cases hk
  refine ⟨hcounted, fun i units type hl ht => ?_, fun i units hl => ?_, fun i j k hi hj hik hjk => ?_,
    fun i units hl => ?_, fun i units hl => ?_, hvalues, hatoms⟩
  · obtain ⟨rfl, rfl⟩ | ⟨hi, hl⟩ := hlabel i _ hl
    · rw [Function.update_self]
      exact hn.text ht
    · rw [Function.update_of_ne hi]
      exact h.text i units type hl ht
  · obtain ⟨rfl, rfl⟩ | ⟨hi, hl⟩ := hlabel i _ hl
    · rw [Function.update_self]
      exact ⟨s.symbols, by omega, hn.symbol rfl⟩
    · rw [Function.update_of_ne hi]
      obtain ⟨k, hk, hname⟩ := h.symbol i units hl
      exact ⟨k, by omega, hname⟩
  · by_cases hiv : i = v <;> by_cases hjv : j = v
    · rw [hiv, hjv]
    · subst hiv
      rw [Function.update_self] at hik
      rw [Function.update_of_ne hjv] at hjk
      have := hold j k hjv hj hjk
      have := hnew k hik
      omega
    · subst hjv
      rw [Function.update_self] at hjk
      rw [Function.update_of_ne hiv] at hik
      have := hold i k hiv hi hik
      have := hnew k hjk
      omega
    · rw [Function.update_of_ne hiv] at hik
      rw [Function.update_of_ne hjv] at hjk
      obtain ⟨l₁, hl₁⟩ := Option.isSome_iff_exists.mp hi
      obtain ⟨l₂, hl₂⟩ := Option.isSome_iff_exists.mp hj
      obtain ⟨-, hl₁⟩ := (hlabel i _ hl₁).resolve_left fun h => hiv h.1
      obtain ⟨-, hl₂⟩ := (hlabel j _ hl₂).resolve_left fun h => hjv h.1
      exact h.distinct i j k (hl₁ ▸ rfl) (hl₂ ▸ rfl) hik hjk
  · obtain ⟨-, rfl⟩ | ⟨-, hl⟩ := hlabel i _ hl
    · exact hn.not_number rfl
    · exact h.not_number i units hl
  · obtain ⟨rfl, rfl⟩ | ⟨-, hl⟩ := hlabel i _ hl
    · exact hconst rfl
    · exact h.const i units hl

end Interned

/-! ## Calls that make atoms -/

/-- The program has the string. -/
def Text.Held (s : Program) : Text → Prop
  | .string _ refs => refs ≠ 0
  | .value r => r ∈ s.values
  | .none => True

section
variable {JS_ATOM_END : ℕ} {s : Program} {name : ℕ → Name} {text : Text}

theorem Text.Held.source (h : text.Held s) (JS_ATOM_END : ℕ) : text.source.Held (s.refs JS_ATOM_END) := by
  cases text with
  | string _ _ => exact h
  | value r => exact Interned.refs_of_value _ s h
  | none => trivial

theorem count_erase {rs : List Reference} {r : Reference} (h : r ∈ rs) (i : ℕ) :
    (rs.map Prod.fst).count i =
      ((rs.erase r).map Prod.fst).count i + if i = r.1 then 1 else 0 := by
  have hperm := (List.perm_cons_erase h).map Prod.fst
  rw [hperm.count_eq, List.map_cons, List.count_cons]
  by_cases hi : i = r.1 <;> simp [hi, Ne.symm]

theorem refs_give (h : text.Held s) :
    (s.give text).refs JS_ATOM_END = text.source.others (s.refs JS_ATOM_END) := by
  cases text with
  | string _ _ => rfl
  | none => rfl
  | value r =>
    funext i
    have hcount := count_erase h i
    show ((s.values.erase r).map Prod.fst).count i + s.atomRefs JS_ATOM_END i =
      Function.update (s.refs JS_ATOM_END) r.1 (s.refs JS_ATOM_END r.1 - 1) i
    rw [Function.update_apply]
    by_cases hi : i = r.1
    · subst hi
      rw [if_pos rfl] at hcount
      rw [if_pos rfl, Program.refs, hcount]
      omega
    · rw [if_neg hi] at hcount
      rw [if_neg hi, Program.refs, hcount, Nat.add_zero]

theorem mem_give {r : Reference} (h : r ∈ (s.give text).values) : r ∈ s.values := by
  cases text with
  | string _ _ => exact h
  | none => exact h
  | value q => exact List.mem_of_mem_erase h

theorem atoms_give (s : Program) (text : Text) : (s.give text).atoms = s.atoms := by
  cases text <;> rfl

/-- The references after a call. -/
theorem refs_receive (n : Name) (atom : Bool) (rt : JSRuntime) {v : ℕ} (hv : v ≠ 0) (i : ℕ) :
    (s.receive text n atom (rt, v)).refs JS_ATOM_END i = (s.give text).refs JS_ATOM_END i +
      if i = v then text.left s.rt rt v + (if atom then 0 else 1) +
        (if atom ∧ isConst JS_ATOM_END v = false then 1 else 0) else 0 := by
  rw [Program.refs, Program.refs, Program.atomRefs, Program.atomRefs]
  simp only [Program.receive, if_neg hv, List.map_append, List.count_append, List.map_replicate,
    List.count_replicate]
  by_cases hi : i = v
  · subst hi
    cases hc : isConst JS_ATOM_END i <;> cases atom <;> simp [hv] <;> omega
  · cases atom <;> simp [hi, hv, Ne.symm hi]

/-- A predefined atom is always referred to. -/
theorem not_const_of_refs (s : Program) {v : ℕ} (hv : v ≠ 0) (hlt : v < 2 ^ 31)
    (h0 : s.refs JS_ATOM_END v = 0) : isConst JS_ATOM_END v = false := by
  by_contra hc
  have hc := Bool.not_eq_false _ ▸ hc
  rw [Program.refs, Program.atomRefs, if_pos hc, if_pos ⟨hv, (isConst_iff hlt).mp hc⟩] at h0
  omega

/-- The references after a call that has given an atom. -/
theorem refs_received (n : Name) (atom : Bool) (h : Interned JS_ATOM_END s name) (hs : text.Held s)
    {rt : JSRuntime} {v : ℕ} {l : Label} (hv : v ≠ 0) (hlt : v < 2 ^ 30)
    (hlabel : rt.label v = some l)
    (hatom : atom = false → (s.give text).refs JS_ATOM_END v ≠ 0 → isConst JS_ATOM_END v = false) :
    (s.receive text n atom (rt, v)).refs JS_ATOM_END =
      text.source.gained JS_ATOM_END (s.refs JS_ATOM_END) v := by
  funext i
  rw [refs_receive n atom rt hv, Source.gained, ← refs_give hs, Function.update_apply]
  by_cases hi : i = v
  · subst hi
    rw [if_pos rfl, if_pos rfl]
    have hsome : (rt.get i).isSome := by
      obtain ⟨-, p, hp, -⟩ := Counted.get_of_label hlabel
      exact hp ▸ rfl
    -- a string becomes the entry where there was none before
    have hleft : text.left s.rt rt i = if (s.give text).refs JS_ATOM_END i = 0
        then text.source.gain - 1 else 0 := by
      cases text with
      | value r => simp [Text.left, Text.source, Source.gain]
      | none => simp [Text.left, Text.source, Source.gain]
      | string str refs =>
        show (if (s.rt.get i).isNone ∧ (rt.get i).isSome then refs - 1 else 0) =
          if s.refs JS_ATOM_END i = 0 then refs - 1 else 0
        refine if_congr ?_ rfl rfl
        rw [and_iff_left hsome, Option.isNone_iff_eq_none]
        constructor
        · intro hnone
          by_contra hne
          obtain ⟨-, p, hp, -⟩ := h.counted.exists_get hne
          rw [hnone] at hp
          cases hp
        · intro h0
          have hnone := h.counted.contents_eq_none h0
          rwa [JSRuntime.contents, if_neg hv, Option.map_eq_none_iff] at hnone
    have hgain := Source.gain_ne_zero (hs.source JS_ATOM_END)
    rw [hleft]
    by_cases h0 : (s.give text).refs JS_ATOM_END i = 0
    · have hc := not_const_of_refs _ hv (by omega) h0
      cases atom <;> simp [h0, hc] <;> omega
    · cases atom with
      | false => simp [h0, hatom rfl h0]
      | true => cases hc : isConst JS_ATOM_END i <;> simp [h0]
  · rw [if_neg hi, if_neg hi, Nat.add_zero]

/-- A call that has failed. -/
theorem Interned.received_null (h : Interned JS_ATOM_END s name) (text : Text) {rt : JSRuntime}
    (hcounted : Counted rt ((s.give text).refs JS_ATOM_END))
    (hstays : Stays ((s.give text).refs JS_ATOM_END) s.rt rt) (n : Name) (atom : Bool) :
    Interned JS_ATOM_END (s.receive text n atom (rt, 0)) name := by
  have hrefs : (s.receive text n atom (rt, 0)).refs JS_ATOM_END =
      (s.give text).refs JS_ATOM_END := by
    funext i
    simp [Program.refs, Program.atomRefs, Program.receive]
  refine h.stays (hrefs ▸ hcounted) (hrefs ▸ hstays) (Nat.le_succ _) (fun r hr => ?_)
    fun r hr => ?_
  · refine h.values r (@mem_give _ text _ ?_)
    simpa [Program.receive] using hr
  · refine h.atoms r ?_
    rw [← atoms_give s text]
    simpa [Program.receive] using hr

/-- **A call that makes an atom** keeps the invariant. -/
theorem Interned.received (h : Interned JS_ATOM_END s name) (hs : text.Held s) {l : Label}
    {o : Option (JSRuntime × ℕ)}
    (hgiven : Counted.Given JS_ATOM_END (s.refs JS_ATOM_END) s.rt text.source l o) {n : Name}
    (hn : Named s l n) (atom : Bool) (hatom : atom = false → l.2 ≠ .STRING) :
    ∃ p, o = some p ∧ ∃ name', Interned JS_ATOM_END (s.receive text n atom p) name' := by
  obtain ⟨rt, v, ho, hstays, ⟨rfl, hcounted⟩ | ⟨hv, hlt, hcounted, hlabel, hsymbol⟩⟩ := hgiven
  · rw [← refs_give hs] at hstays hcounted
    exact ⟨(rt, 0), ho, name, h.received_null text hcounted hstays n atom⟩
  · rw [← refs_give hs] at hstays hsymbol
    refine ⟨(rt, v), ho, Function.update name v n, ?_⟩
    -- an entry that is found has been there under this label
    have hfound : (s.give text).refs JS_ATOM_END v ≠ 0 → s.rt.label v = some l ∧ name v = n :=
      fun h0 => by
        have hold := (hstays v h0).symm.trans hlabel
        have htype : l.2 ≠ .SYMBOL := fun ht => h0 (hsymbol ht)
        exact ⟨hold, (h.text v l.1 l.2 hold htype).trans (hn.text htype).symm⟩
    have hglobal : l.2 = .GLOBAL_SYMBOL → JS_ATOM_END ≤ v := fun ht => by
      by_cases h0 : (s.give text).refs JS_ATOM_END v = 0
      · have hc := not_const_of_refs _ hv (by omega) h0
        by_contra hlt'
        rw [(isConst_iff (by omega)).mpr (by omega)] at hc
        cases hc
      · exact h.const v l.1 (ht ▸ (hfound h0).1)
    have hrefs := refs_received n atom h hs hv hlt hlabel fun ha h0 => by
      cases ht : l.2 with
      | STRING => exact absurd ht (hatom ha)
      | SYMBOL => exact absurd (hsymbol ht) h0
      | GLOBAL_SYMBOL =>
        have hle := hglobal ht
        by_contra hc
        have := (isConst_iff (by omega)).mp (Bool.not_eq_false _ ▸ hc)
        omega
      | PRIVATE =>
        obtain ⟨-, p, hp, -, htype⟩ := Counted.get_of_label hlabel
        exact absurd (htype.trans ht) (hcounted.table.not_private v p hp)
    have hname : ∀ r : Reference, ((s.give text).refs JS_ATOM_END r.1 ≠ 0) → name r.1 = r.2 →
        Function.update name v n r.1 = r.2 := fun r h0 hr => by
      rw [Function.update_apply]
      split_ifs with hrv
      · rw [hrv] at h0 hr
        rw [← hr, (hfound h0).2]
      · exact hr
    refine h.gain (hrefs ▸ hcounted) (fun i hi h0 => hstays i ?_) hlabel hn hglobal rfl
      (fun r hr => ?_) fun r hr => ?_
    · rwa [refs_receive n atom rt hv, if_neg hi, Nat.add_zero] at h0
    · obtain hr | hr := List.mem_append.mp hr
      · exact hname r (refs_of_value _ _ hr) (h.values r (mem_give hr))
      · rw [if_neg hv] at hr
        obtain rfl := List.eq_of_mem_replicate hr
        exact Function.update_self ..
    · obtain hr | hr := List.mem_append.mp hr
      · refine (h.atoms r (atoms_give s text ▸ hr)).imp_right fun ⟨h0, hlt', hr'⟩ => ?_
        exact ⟨h0, hlt', hname r (refs_of_atom _ hr h0 hlt') hr'⟩
      · split_ifs at hr with hatom'
        · obtain rfl := List.mem_singleton.mp hr
          exact .inr ⟨hv, by omega, Function.update_self ..⟩
        · cases hr

/-- A call that gives the atom of a number. -/
theorem Interned.received_number (h : Interned JS_ATOM_END s name) (text : Text) {rt : JSRuntime}
    {n : ℕ}
    (hcounted : Counted rt ((s.give text).refs JS_ATOM_END))
    (hstays : Stays ((s.give text).refs JS_ATOM_END) s.rt rt) (hn : n < 2 ^ 31) :
    Interned JS_ATOM_END
      (s.receive text (.text (decimal n) .STRING) true (rt, atomFromUInt32 n)) name := by
  have hv := atomFromUInt32_eq hn
  have hv0 : atomFromUInt32 n ≠ 0 := by omega
  have hnone : rt.get (atomFromUInt32 n) = none := by
    by_contra hne
    obtain ⟨p, hp⟩ := Option.ne_none_iff_exists'.mp hne
    have := hcounted.lt_of_get hp
    omega
  have hleft : text.left s.rt rt (atomFromUInt32 n) = 0 := by
    cases text <;> simp [Text.left, hnone]
  have hconst : isConst JS_ATOM_END (atomFromUInt32 n) = true := by
    rw [isConst, Bool.or_eq_true, decide_eq_true_eq, decide_eq_true_eq]
    omega
  have hrefs : (s.receive text (.text (decimal n) .STRING) true (rt, atomFromUInt32 n)).refs
      JS_ATOM_END = (s.give text).refs JS_ATOM_END := by
    funext i
    rw [refs_receive _ true rt hv0, hleft, hconst]
    simp
  refine h.stays (hrefs ▸ hcounted) (hrefs ▸ hstays) (Nat.le_succ _) (fun r hr => ?_) fun r hr => ?_
  · refine h.values r (@mem_give _ text _ ?_)
    simpa [Program.receive, hleft] using hr
  · obtain hr | hr := List.mem_append.mp hr
    · exact h.atoms r (atoms_give s text ▸ hr)
    · rw [if_pos ⟨hv0, rfl⟩] at hr
      exact .inl ⟨n, hn, List.mem_singleton.mp hr⟩

/-- An entry that a value is made of has one reference more than it needs. -/
theorem one_lt_refs (h : Interned JS_ATOM_END s name) (hs : text.Held s) {i : ℕ}
    (hi : text.source = .entry i) (hc : isConst JS_ATOM_END i) : 1 < s.refs JS_ATOM_END i := by
  cases text with
  | string _ _ => cases hi
  | none => cases hi
  | value r =>
    obtain rfl : r.1 = i := Source.entry.inj hi
    have hvalues : 0 < (s.values.map Prod.fst).count r.1 :=
      List.count_pos_iff.mpr (List.mem_map_of_mem hs)
    obtain ⟨h0, hlt⟩ := h.lt_of_refs (Interned.refs_of_value _ s hs)
    rw [Program.refs, Program.atomRefs, if_pos hc, if_pos ⟨h0, (isConst_iff (by omega)).mp hc⟩]
    omega

/-- A string becomes an atom. -/
theorem Interned.JS_NewAtomStr2 (h : Interned JS_ATOM_END s name) (hs : text.Held s)
    {str : JSString} (htext : s.rt.text text.source = some str) (type : AtomType) (m : Memory) :
    ∃ p, s.rt.JS_NewAtomStr2 JS_ATOM_END text.source type m = some p ∧
      ∃ name', Interned JS_ATOM_END (s.receive text (s.stringName str type) true p) name' := by
  rw [JSRuntime.JS_NewAtomStr2, htext]
  simp only
  have hnew : (∀ n : ℕ, n < 2 ^ 31 → str.units ≠ decimal n) →
      s.stringName str type = s.symbolName str.units type →
      ∃ p, s.rt.newAtom JS_ATOM_END text.source type m = some p ∧
        ∃ name', Interned JS_ATOM_END (s.receive text (s.stringName str type) true p) name' := by
    intro hnumber hname
    rw [hname]
    refine h.received hs (h.counted.newAtom (hs.source _) (fun _ => one_lt_refs h hs) htext type m)
      ⟨fun ht => ?_, fun ht => ?_, fun _ => hnumber⟩ true fun ha => (by cases ha)
    all_goals cases type <;> first | rfl | contradiction
  rw [Program.stringName] at hnew ⊢
  cases hnum : is_num_string str with
  | none =>
    rw [hnum] at hnew
    refine hnew (fun n hn hunits => ?_) rfl
    rw [is_num_string_eq_some.mpr ⟨hunits, by omega⟩] at hnum
    cases hnum
  | some n =>
    rw [hnum] at hnew
    simp only [Option.any_some] at hnew ⊢
    obtain ⟨hunits, hsize⟩ := is_num_string_eq_some.mp hnum
    by_cases hmax : n ≤ JS_ATOM_MAX_INT
    · obtain ⟨rt, hrt, hcounted, hstays⟩ := h.counted.js_free_string (hs.source _)
      rw [← refs_give hs] at hcounted hstays
      have hn : n < 2 ^ 31 := by
        rw [JS_ATOM_MAX_INT] at hmax
        omega
      rw [if_pos hmax, if_pos (decide_eq_true hmax), hunits]
      exact ⟨_, by rw [hrt]; rfl, name, h.received_number text hcounted hstays hn⟩
    · rw [if_neg hmax]
      refine hnew (fun k hk hunits' => hmax ?_) (if_neg (by simpa using hmax))
      have heq := decimal_inj.mp (hunits.symm.trans hunits')
      rw [JS_ATOM_MAX_INT]
      omega

theorem stringName_string (s : Program) (str : JSString) :
    s.stringName str .STRING = .text str.units .STRING := by
  rw [Program.stringName]
  split_ifs <;> rfl

/-- A C string becomes an atom. -/
theorem Interned.JS_NewAtomLen2 (h : Interned JS_ATOM_END s name) {str : List ℕ}
    (hbytes : ∀ b ∈ str, b < 256) (type : AtomType) (string : Bool) (m : Memory) :
    ∃ p, s.rt.JS_NewAtomLen2 JS_ATOM_END str type string m = some p ∧
      ∃ name', Interned JS_ATOM_END (s.receive (.string (JS_NewStringLen str) 1)
        (s.bytesName JS_ATOM_END str type) true p) name' := by
  have hs : (Text.string (JS_NewStringLen str) 1).Held s := one_ne_zero
  have hmake : ∃ p, s.rt.newAtomOfString JS_ATOM_END str type string m = some p ∧
      ∃ name', Interned JS_ATOM_END (s.receive (.string (JS_NewStringLen str) 1)
        (s.stringName (JS_NewStringLen str) type) true p) name' := by
    rw [JSRuntime.newAtomOfString]
    cases string with
    | true => exact h.JS_NewAtomStr2 hs rfl type m
    | false =>
      exact ⟨_, rfl, name, h.received_null (.string (JS_NewStringLen str) 1) h.counted
        (fun _ _ => rfl) _ true⟩
  rw [JSRuntime.JS_NewAtomLen2, Program.bytesName]
  split_ifs with hdigit
  · exact hmake
  · obtain ⟨-, hfind⟩ | ⟨-, rt', v, hfind, hcounted, hsame, hlabel⟩ :=
      h.counted.FindAtom JS_ATOM_END hbytes
    · rw [hfind]
      exact hmake
    · rw [hfind]
      simp only
      obtain ⟨h0, p, hp, -⟩ := Counted.get_of_label hlabel
      have hn := h.counted.ne_zero_of_label hlabel
      refine h.received hs (l := (latin1 str, .STRING)) ⟨rt', v + 1, rfl,
        fun i _ => congrFun hsame i, .inr ⟨h0, h.counted.lt_of_get hp, ?_, by rw [hsame, hlabel],
          fun ht => by cases ht⟩⟩
        ⟨fun _ => rfl, fun ht => (by cases ht), fun _ => h.not_number _ _ hlabel⟩ true
        fun ha => by cases ha
      rw [Source.gained]
      show Counted rt' (Function.update _ _ (if s.refs JS_ATOM_END (v + 1) = 0 then _ else _))
      rw [if_neg hn]
      exact hcounted

/-- A number becomes an atom. -/
theorem Interned.JS_NewAtomInt64 (h : Interned JS_ATOM_END s name) (n : ℤ) (string : Bool)
    (m : Memory) : ∃ p, s.rt.JS_NewAtomInt64 JS_ATOM_END n string m = some p ∧
      ∃ name', Interned JS_ATOM_END
        (s.receive (.string (.ofUnits (decimal n)) 1) (.text (decimal n) .STRING) true p) name' := by
  have hs : (Text.string (.ofUnits (decimal n)) 1).Held s := one_ne_zero
  have hnamed : ¬(0 ≤ n ∧ n ≤ JS_ATOM_MAX_INT) →
      Named s (decimal n, .STRING) (.text (decimal n) .STRING) := fun hsmall => by
    refine ⟨fun _ => rfl, fun ht => (by cases ht), fun _ k hk hunits => ?_⟩
    have heq := decimal_inj.mp hunits
    rw [JS_ATOM_MAX_INT] at hsmall
    omega
  rw [JSRuntime.JS_NewAtomInt64]
  split_ifs with hsmall hstring
  · obtain ⟨hpos, hmax⟩ := hsmall
    obtain ⟨n, rfl⟩ := Int.eq_ofNat_of_zero_le hpos
    refine ⟨_, rfl, name, ?_⟩
    refine h.received_number (.string (.ofUnits (decimal n)) 1) h.counted (fun _ _ => rfl) ?_
    rw [JS_ATOM_MAX_INT] at hmax
    omega
  · exact h.received hs (h.counted.newAtom (hs.source _) (fun i hi => by cases hi)
      rfl .STRING m) (hnamed hsmall) true fun ha => by cases ha
  · exact ⟨_, rfl, name, h.received_null (.string (.ofUnits (decimal n)) 1) h.counted
      (fun _ _ => rfl) _ true⟩

/-- A new symbol. -/
theorem Interned.newSymbol (h : Interned JS_ATOM_END s name) (hs : text.Held s) {str : JSString}
    {atom_type : AtomType} (htype : atom_type ≠ .STRING) {o : Option (JSRuntime × ℕ)}
    (hgiven : Counted.Given JS_ATOM_END (s.refs JS_ATOM_END) s.rt text.source
      (str.units, atom_type.stored) o) :
    ∃ p, o = some p ∧ ∃ name', Interned JS_ATOM_END
      (s.receive text (s.symbolName str.units atom_type) false p) name' := by
  refine h.received hs hgiven ⟨fun ht => ?_, fun ht => ?_, fun ht => ?_⟩ false fun _ => ?_
  all_goals cases atom_type <;> first | rfl | contradiction | (intro hstored; cases hstored)

/-- A symbol is made of an atom, with one more reference to its string. -/
theorem Interned.JS_NewSymbolFromAtom (h : Interned JS_ATOM_END s name) {r : Reference}
    (hr : r ∈ s.atoms) (hlt : r.1 < 2 ^ 31) {atom_type : AtomType} (htype : atom_type ≠ .STRING)
    (m : Memory) :
    ∃ str, s.rt.text (.entry r.1) = some str ∧
      ∃ p, s.rt.JS_NewSymbolFromAtom JS_ATOM_END r.1 atom_type m = some p ∧
        ∃ name', Interned JS_ATOM_END
          (s.receive .none (s.symbolName str.units atom_type) false p) name' := by
  have hrefs : s.refs JS_ATOM_END r.1 ≠ 0 := by
    obtain ⟨n, hn, hr'⟩ | ⟨h0, -, -⟩ := h.atoms r hr
    · rw [hr', atomFromUInt32_eq hn] at hlt
      omega
    · exact refs_of_atom _ hr h0 hlt
  obtain ⟨h0, p, hp, -⟩ := h.counted.exists_get hrefs
  obtain ⟨rt, hrt, hcounted, hlabel⟩ := h.counted.retain hrefs
  have hheld : (Source.entry r.1).Held
      (Function.update (s.refs JS_ATOM_END) r.1 (s.refs JS_ATOM_END r.1 + 1)) := by
    rw [Source.Held, Function.update_self]
    omega
  obtain ⟨str, htext⟩ := hcounted.exists_text hheld
  -- the reference to the string is given up again
  have hothers : (Source.entry r.1).others
      (Function.update (s.refs JS_ATOM_END) r.1 (s.refs JS_ATOM_END r.1 + 1)) =
      s.refs JS_ATOM_END := by
    rw [Source.others, Function.update_self, Nat.add_sub_cancel, Function.update_idem,
      Function.update_eq_self]
  obtain ⟨rt', v, ho, hstays, hcase⟩ : Counted.Given JS_ATOM_END _ _ _ _ _ :=
    hcounted.newAtom hheld (fun i hi _ => by
      cases hi
      rw [Function.update_self]
      omega) htext atom_type m
  have hunits : p.str.units = str.units := by
    have hl := congrFun hlabel r.1
    obtain ⟨-, q, hq, -⟩ := hcounted.exists_get hheld
    rw [JSRuntime.text, hq] at htext
    rw [Counted.label_of_get h0 hp, Counted.label_of_get h0 hq, Option.some.inj htext] at hl
    exact (congrArg Prod.fst (Option.some.inj hl)).symm
  rw [Source.gained, hothers] at hcase
  rw [hothers] at hstays
  have hgiven : Counted.Given JS_ATOM_END (s.refs JS_ATOM_END) s.rt .null
      (p.str.units, atom_type.stored) (rt.newAtom JS_ATOM_END (.entry r.1) atom_type m) :=
    ⟨rt', v, ho, fun i hi => (hstays i hi).trans (congrFun hlabel i), by rw [hunits]; exact hcase⟩
  obtain ⟨q, hq, hname⟩ := h.newSymbol (show Text.none.Held s from trivial) htype hgiven
  refine ⟨p.str, by rw [JSRuntime.text, hp]; rfl, q, ?_, hname⟩
  have hbound := h.counted.table.bound r.1 p hp
  rw [JSRuntime.JS_NewSymbolFromAtom, if_neg (by omega), hrt]
  exact hq

/-! ## References -/

variable {r : Reference}

theorem refs_cons_value (JS_ATOM_END : ℕ) (s : Program) (rt : JSRuntime) (r : Reference) :
    ({ s with rt := rt, values := r :: s.values } : Program).refs JS_ATOM_END =
      Function.update (s.refs JS_ATOM_END) r.1 (s.refs JS_ATOM_END r.1 + 1) := by
  funext i
  rw [Function.update_apply]
  show ((r :: s.values).map Prod.fst).count i + s.atomRefs JS_ATOM_END i = _
  rw [List.map_cons, List.count_cons]
  by_cases hi : i = r.1
  · subst hi
    rw [if_pos rfl, beq_self_eq_true, if_pos rfl, Program.refs]
    omega
  · rw [if_neg hi, if_neg (by simpa using Ne.symm hi), Program.refs, Nat.add_zero]

theorem refs_erase_value (JS_ATOM_END : ℕ) (rt : JSRuntime) (hr : r ∈ s.values) :
    ({ s with rt := rt, values := s.values.erase r } : Program).refs JS_ATOM_END =
      Function.update (s.refs JS_ATOM_END) r.1 (s.refs JS_ATOM_END r.1 - 1) :=
  refs_give (show (Text.value r).Held s from hr)

theorem atomRefs_of_not_const (s : Program) {i : ℕ} (hc : isConst JS_ATOM_END i = false) :
    s.refs JS_ATOM_END i = (s.values.map Prod.fst).count i + (s.atoms.map Prod.fst).count i := by
  rw [Program.refs, Program.atomRefs, if_neg (by rw [hc]; decide)]

theorem refs_cons_atom (JS_ATOM_END : ℕ) (s : Program) (rt : JSRuntime) (r : Reference) :
    ({ s with rt := rt, atoms := r :: s.atoms } : Program).refs JS_ATOM_END =
      Function.update (s.refs JS_ATOM_END) r.1
        (s.refs JS_ATOM_END r.1 + if isConst JS_ATOM_END r.1 then 0 else 1) := by
  funext i
  rw [Function.update_apply]
  cases hc : isConst JS_ATOM_END i with
  | true =>
    have hsame : ({ s with rt := rt, atoms := r :: s.atoms } : Program).refs JS_ATOM_END i =
        s.refs JS_ATOM_END i := by
      simp [Program.refs, Program.atomRefs, hc]
    rw [hsame]
    split_ifs with hi hc'
    · rw [hi, Nat.add_zero]
    · exact absurd (hi ▸ hc) hc'
    · rfl
  | false =>
    rw [atomRefs_of_not_const _ hc]
    show _ + ((r :: s.atoms).map Prod.fst).count i = _
    rw [List.map_cons, List.count_cons]
    by_cases hi : i = r.1
    · subst hi
      rw [if_pos rfl, beq_self_eq_true, if_pos rfl, hc, atomRefs_of_not_const s hc]
      rfl
    · rw [if_neg hi, if_neg (by simpa using Ne.symm hi), atomRefs_of_not_const s hc]
      rfl

theorem refs_erase_atom (rt : JSRuntime) (hr : r ∈ s.atoms) (hc : isConst JS_ATOM_END r.1 = false) :
    ({ s with rt := rt, atoms := s.atoms.erase r } : Program).refs JS_ATOM_END =
      Function.update (s.refs JS_ATOM_END) r.1 (s.refs JS_ATOM_END r.1 - 1) := by
  funext i
  rw [Function.update_apply]
  have hcount := count_erase hr i
  cases hci : isConst JS_ATOM_END i with
  | true =>
    have hi : i ≠ r.1 := by
      rintro rfl
      rw [hc] at hci
      cases hci
    rw [if_neg hi]
    simp [Program.refs, Program.atomRefs, hci]
  | false =>
    rw [atomRefs_of_not_const _ hci]
    by_cases hi : i = r.1
    · subst hi
      rw [if_pos rfl] at hcount
      rw [if_pos rfl, atomRefs_of_not_const s hci, hcount]
      rfl
    · rw [if_neg hi, Nat.add_zero] at hcount
      rw [if_neg hi, atomRefs_of_not_const s hci, hcount]

/-- One more reference as a value. -/
theorem Interned.dupValue (h : Interned JS_ATOM_END s name) (h0 : r.1 ≠ 0) (hr : name r.1 = r.2)
    (hrefs : s.refs JS_ATOM_END r.1 ≠ 0) :
    ∃ rt, s.rt.retain r.1 = some rt ∧
      Interned JS_ATOM_END { s with rt := rt, values := r :: s.values } name := by
  obtain ⟨rt, hrt, hcounted, hlabel⟩ := h.counted.retain hrefs
  have hrefs' := refs_cons_value JS_ATOM_END s rt r
  refine ⟨rt, hrt, h.stays (hrefs' ▸ hcounted) (fun i _ => congrFun hlabel i) le_rfl
    (fun q hq => ?_) h.atoms⟩
  obtain rfl | hq := List.mem_cons.mp hq
  · exact hr
  · exact h.values q hq

/-- One reference less as a value. -/
theorem Interned.freeValue (h : Interned JS_ATOM_END s name) (hr : r ∈ s.values) :
    ∃ rt, s.rt.release r.1 = some rt ∧
      Interned JS_ATOM_END { s with rt := rt, values := s.values.erase r } name := by
  obtain ⟨rt, hrt, hcounted, hstays, -⟩ := h.counted.release (refs_of_value _ s hr)
  have hrefs' := refs_erase_value JS_ATOM_END rt hr
  exact ⟨rt, hrt, h.stays (hrefs' ▸ hcounted) (hrefs' ▸ hstays) le_rfl
    (fun q hq => h.values q (List.mem_of_mem_erase hq)) h.atoms⟩

/-- One more reference as an atom. -/
theorem Interned.dupAtom (h : Interned JS_ATOM_END s name)
    (hr : IsNumber r ∨ r.1 ≠ 0 ∧ r.1 < 2 ^ 31 ∧ name r.1 = r.2)
    (hrefs : r.1 < 2 ^ 31 → s.refs JS_ATOM_END r.1 ≠ 0) :
    ∃ rt, s.rt.JS_DupAtom JS_ATOM_END r.1 = some rt ∧
      Interned JS_ATOM_END { s with rt := rt, atoms := r :: s.atoms } name := by
  have hatoms : ∀ q ∈ r :: s.atoms, IsNumber q ∨ q.1 ≠ 0 ∧ q.1 < 2 ^ 31 ∧ name q.1 = q.2 :=
    List.forall_mem_cons.mpr ⟨hr, h.atoms⟩
  by_cases hlt : r.1 < 2 ^ 31
  · obtain ⟨rt, hrt, hcounted, hlabel⟩ := h.counted.JS_DupAtom JS_ATOM_END (hrefs hlt)
    have hrefs' := refs_cons_atom JS_ATOM_END s rt r
    exact ⟨rt, hrt, h.stays (hrefs' ▸ hcounted) (fun i _ => congrFun hlabel i) le_rfl h.values
      hatoms⟩
  · have hc : isConst JS_ATOM_END r.1 = true := by
      rw [isConst, Bool.or_eq_true, decide_eq_true_eq, decide_eq_true_eq]
      omega
    have hrefs' := refs_cons_atom JS_ATOM_END s s.rt r
    rw [if_pos hc, Nat.add_zero, Function.update_eq_self] at hrefs'
    refine ⟨s.rt, if_pos hc, h.stays (hrefs' ▸ h.counted) (fun _ _ => rfl) le_rfl h.values hatoms⟩

/-- One reference less as an atom. -/
theorem Interned.freeAtom (h : Interned JS_ATOM_END s name) (hr : r ∈ s.atoms) :
    ∃ rt, s.rt.JS_FreeAtom JS_ATOM_END r.1 = some rt ∧
      Interned JS_ATOM_END { s with
        rt := rt
        atoms := if isConst JS_ATOM_END r.1 then s.atoms else s.atoms.erase r } name := by
  rw [JSRuntime.JS_FreeAtom]
  cases hc : isConst JS_ATOM_END r.1 with
  | true => exact ⟨s.rt, rfl, h⟩
  | false =>
    have hlt : r.1 < 2 ^ 31 := by
      by_contra hle
      rw [isConst, Bool.or_eq_false_iff, decide_eq_false_iff_not, decide_eq_false_iff_not] at hc
      omega
    have hrefs : s.refs JS_ATOM_END r.1 ≠ 0 := by
      have : 0 < (s.atoms.map Prod.fst).count r.1 :=
        List.count_pos_iff.mpr (List.mem_map_of_mem hr)
      rw [atomRefs_of_not_const s hc]
      omega
    obtain ⟨rt, hrt, hcounted, hstays, -⟩ := h.counted.release hrefs
    have hrefs' := refs_erase_atom rt hr hc
    refine ⟨rt, hrt, h.stays ?_ ?_ le_rfl h.values fun q hq => ?_⟩
    · rw [← hrefs'] at hcounted
      exact hcounted
    · rw [← hrefs'] at hstays
      exact hstays
    · exact h.atoms q (List.mem_of_mem_erase hq)

/-- **One step** of the program is possible and keeps the invariant. -/
theorem Interned.step (h : Interned JS_ATOM_END s name) {a : Action} (ha : Allowed s a) :
    ∃ s', Atoms.step JS_ATOM_END s a = some s' ∧ ∃ name', Interned JS_ATOM_END s' name' := by
  -- the entry of a reference
  have hatom : ∀ r ∈ s.atoms, r.1 < 2 ^ 31 → r.1 ≠ 0 ∧ name r.1 = r.2 := fun r hr hlt => by
    obtain ⟨n, hn, hr'⟩ | ⟨h0, -, hname⟩ := h.atoms r hr
    · rw [hr', atomFromUInt32_eq hn] at hlt
      omega
    · exact ⟨h0, hname⟩
  cases a with
  | newAtomStr text m =>
    have hs : text.Held s := by
      cases text with
      | none => exact ha.elim
      | string _ _ => exact ha
      | value r => exact ha
    obtain ⟨str, htext⟩ := h.counted.exists_text (hs.source JS_ATOM_END)
    obtain ⟨p, hp, hname⟩ := h.JS_NewAtomStr2 hs htext .STRING m
    rw [stringName_string] at hname
    refine ⟨_, ?_, hname⟩
    rw [Atoms.step, htext, Option.bind_some, JSRuntime.JS_NewAtomStr, hp]
    rfl
  | newAtomInt64 n string m =>
    obtain ⟨p, hp, hname⟩ := h.JS_NewAtomInt64 n string m
    exact ⟨_, by rw [Atoms.step, hp]; rfl, hname⟩
  | newAtomLen str type string m =>
    obtain ⟨p, hp, hname⟩ := h.JS_NewAtomLen2 ha.1 type string m
    exact ⟨_, by rw [Atoms.step, hp]; rfl, hname⟩
  | newSymbol text atom_type m =>
    have hs : text.Held s ∧ atom_type ≠ .STRING := by
      cases text with
      | none => exact ⟨trivial, by obtain rfl | rfl := ha <;> decide⟩
      | string _ _ => exact ha
      | value r => exact ha
    obtain ⟨hs, htype⟩ := hs
    obtain ⟨str, htext⟩ := h.counted.exists_text (hs.source JS_ATOM_END)
    obtain ⟨p, hp, hname⟩ := h.newSymbol hs htype
      (h.counted.newAtom (hs.source _) (fun _ => one_lt_refs h hs) htext atom_type m)
    exact ⟨_, by rw [Atoms.step, htext, Option.bind_some, hp]; rfl, hname⟩
  | newSymbolFromAtom r atom_type m =>
    obtain ⟨hr, hlt, htype⟩ := ha
    obtain ⟨str, htext, p, hp, hname⟩ := h.JS_NewSymbolFromAtom hr hlt htype m
    exact ⟨_, by rw [Atoms.step, htext, Option.bind_some, hp]; rfl, hname⟩
  | dupAtom r =>
    obtain ⟨rt, hrt, hname⟩ := h.dupAtom (h.atoms r ha) fun hlt =>
      Interned.refs_of_atom _ ha (hatom r ha hlt).1 hlt
    exact ⟨_, by rw [Atoms.step, hrt]; rfl, name, hname⟩
  | freeAtom r =>
    obtain ⟨rt, hrt, hname⟩ := h.freeAtom ha
    exact ⟨_, by rw [Atoms.step, hrt]; rfl, name, hname⟩
  | atomToValue r =>
    rw [Atoms.step, JSRuntime.JS_AtomToValue]
    by_cases hlt : 2 ^ 31 ≤ r.1
    · simp only [if_pos hlt]
      exact ⟨_, rfl, name, h⟩
    · obtain ⟨h0, hr⟩ := hatom r ha (by omega)
      have hrefs := Interned.refs_of_atom JS_ATOM_END ha h0 (by omega)
      obtain ⟨-, p, hp, -⟩ := h.counted.exists_get hrefs
      have hbound := h.counted.table.bound r.1 p hp
      obtain ⟨rt, hrt, hname⟩ := h.dupValue h0 hr hrefs
      simp only [if_neg hlt, if_neg (Nat.not_le.mpr hbound), hrt]
      exact ⟨_, rfl, name, hname⟩
  | valueToAtom r =>
    obtain ⟨hr, -⟩ := ha
    have hrefs := Interned.refs_of_value JS_ATOM_END s hr
    obtain ⟨h0, p, hp, -⟩ := h.counted.exists_get hrefs
    obtain ⟨-, hlt⟩ := h.lt_of_refs hrefs
    obtain ⟨rt, hrt, hname⟩ := h.dupAtom (.inr ⟨h0, by omega, h.values r hr⟩) fun _ => hrefs
    refine ⟨_, ?_, name, hname⟩
    rw [Atoms.step, JSRuntime.JS_ValueToAtom, h.counted.table.js_get_atom_index hp,
      Option.bind_some, hrt]
    rfl
  | dupValue r =>
    have hrefs := Interned.refs_of_value JS_ATOM_END s ha
    obtain ⟨rt, hrt, hname⟩ := h.dupValue (h.lt_of_refs hrefs).1 (h.values r ha) hrefs
    exact ⟨_, by rw [Atoms.step, hrt]; rfl, name, hname⟩
  | freeValue r =>
    obtain ⟨rt, hrt, hname⟩ := h.freeValue ha
    exact ⟨_, by rw [Atoms.step, hrt]; rfl, name, hname⟩

end

end JSEngine.Atoms
