import JSEngine.Atoms.Interning
import JSEngine.Atoms.Predefined

/-!
# Atoms over runs

A runtime starts with the predefined atoms, and the program makes, duplicates and frees atoms,
strings and symbols in any order, while memory may run out at any time.

* `run_atoms`: no call fails an assertion or uses a free entry, and two references are the same
  exactly where the texts, or the symbols, are;
* `run_counts`: an entry is there exactly as long as it is referred to, and counts its references;
* `run_JS_NewAtomLen`, `run_JS_NewAtomLenPrivate`: in which states a C string gets an atom with its
  text, and a private symbol of its own.
-/

namespace JSEngine.Atoms

open JSEngine.Common JSEngine.Common.Chains
open JSEngine.Java (JString jstr)
open JSEngine.Scalars (JSString JS_NewStringLen decimal)

/-! ## The start -/

/-- What a predefined atom stands for. -/
def predefinedName (i : ℕ) (p : JSString × AtomType) : Name :=
  if p.2.stored = .SYMBOL then .symbol i else .text p.1.units p.2.stored

/-- The program at the start: it can use the predefined atoms. -/
def start (names : List (JSString × AtomType)) (rt : JSRuntime) : Program where
  rt := rt
  atoms := names.mapIdx fun i p => (i + 1, predefinedName i p)
  values := []
  symbols := names.length

/-- The program and its runtime; no step has an event. -/
def program (names : List (JSString × AtomType)) (rt : JSRuntime) :
    Machine Program Action Empty where
  init := start names rt
  step s a := (step (names.length + 1) s a).map fun s => (s, [])

/-- The predefined names are as those of `quickjs-atom.h`: no two strings are the same, none is a
    number, and none is a global symbol. -/
structure Names (names : List (JSString × AtomType)) : Prop where
  distinct : Distinct names
  length : names.length < 2 ^ 29
  not_number : ∀ p ∈ names, p.2 = .STRING → ∀ n : ℕ, n < 2 ^ 31 → p.1.units ≠ decimal n
  not_global : ∀ p ∈ names, p.2 ≠ .GLOBAL_SYMBOL

theorem Names.interned {names : List (JSString × AtomType)} (hnames : Names names) {rt : JSRuntime}
    (hcounted : Counted rt (fun i => if i ≠ 0 ∧ i ≤ names.length then 1 else 0))
    (hlabel : ∀ i p, names[i]? = some p → rt.label (i + 1) = some (p.1.units, p.2.stored)) :
    ∃ name, Interned (names.length + 1) (start names rt) name := by
  refine ⟨fun i => ((names[i - 1]?).map (predefinedName (i - 1))).getD (.symbol 0), ?_⟩
  -- an entry is that of a predefined atom
  have hof : ∀ i l, rt.label i = some l → ∃ k p, i = k + 1 ∧ k < names.length ∧
      names[k]? = some p ∧ l = (p.1.units, p.2.stored) := by
    intro i l hl
    have hn := hcounted.ne_zero_of_label hl
    split_ifs at hn with hi
    · obtain ⟨k, rfl⟩ := Nat.exists_eq_succ_of_ne_zero hi.1
      have hk : k < names.length := hi.2
      have hp := List.getElem?_eq_getElem hk
      exact ⟨k, names[k], rfl, hk, hp, Option.some.inj (hl.symm.trans (hlabel k _ hp))⟩
    · exact absurd rfl hn
  have hname : ∀ k p, names[k]? = some p →
      ((names[k + 1 - 1]?).map (predefinedName (k + 1 - 1))).getD (.symbol 0) =
        predefinedName k p := by
    intro k p hp
    rw [Nat.add_sub_cancel, hp]
    rfl
  have hindex : ∀ k p k', predefinedName k p = .symbol k' → k' = k := by
    intro k p k' h
    rw [predefinedName] at h
    split_ifs at h
    cases h
    rfl
  have hrefs : (start names rt).refs (names.length + 1) =
      fun i => if i ≠ 0 ∧ i ≤ names.length then 1 else 0 := by
    funext i
    show 0 + (start names rt).atomRefs (names.length + 1) i = _
    rw [Nat.zero_add, Program.atomRefs]
    cases hc : isConst (names.length + 1) i with
    | true => simp only [if_true, Nat.lt_succ_iff]
    | false =>
      have hlt : ¬i < names.length + 1 := fun hlt => by
        rw [isConst, Bool.or_eq_false_iff, decide_eq_false_iff_not] at hc
        exact hc.1 hlt
      rw [if_neg (by decide), if_neg (by omega), List.count_eq_zero]
      intro hmem
      obtain ⟨r, hr, rfl⟩ := List.mem_map.mp hmem
      obtain ⟨k, hk, rfl⟩ := List.mem_mapIdx.mp hr
      exact hlt (Nat.succ_lt_succ hk)
  refine ⟨hrefs ▸ hcounted, fun i units type hl ht => ?_, fun i units hl => ?_,
    fun i j k hi hj hik hjk => ?_, fun i units hl => ?_, fun i units hl => ?_,
    fun r hr => (by cases hr), fun r hr => .inr ?_⟩
  · obtain ⟨k, p, rfl, hk, hp, hl⟩ := hof i _ hl
    obtain ⟨rfl, rfl⟩ := Prod.mk.inj hl
    rw [hname k p hp, predefinedName, if_neg ht]
  · obtain ⟨k, p, rfl, hk, hp, hl⟩ := hof i _ hl
    obtain ⟨rfl, ht⟩ := Prod.mk.inj hl
    exact ⟨k, hk, by rw [hname k p hp, predefinedName, if_pos ht.symm]⟩
  · obtain ⟨l₁, hl₁⟩ := Option.isSome_iff_exists.mp hi
    obtain ⟨l₂, hl₂⟩ := Option.isSome_iff_exists.mp hj
    obtain ⟨i, p, rfl, -, hp, -⟩ := hof i _ hl₁
    obtain ⟨j, q, rfl, -, hq, -⟩ := hof j _ hl₂
    simp only [hname i p hp] at hik
    simp only [hname j q hq] at hjk
    rw [← hindex i p k hik, ← hindex j q k hjk]
  · obtain ⟨k, p, rfl, hk, hp, hl⟩ := hof i _ hl
    obtain ⟨rfl, ht⟩ := Prod.mk.inj hl
    refine hnames.not_number p (List.mem_of_getElem? hp) ?_
    cases h : p.2 <;> rw [h] at ht <;> first | rfl | cases ht
  · obtain ⟨k, p, rfl, hk, hp, hl⟩ := hof i _ hl
    obtain ⟨rfl, ht⟩ := Prod.mk.inj hl
    refine absurd ?_ (hnames.not_global p (List.mem_of_getElem? hp))
    cases h : p.2 <;> rw [h] at ht <;> first | rfl | cases ht
  · obtain ⟨k, hk, rfl⟩ := List.mem_mapIdx.mp hr
    have := hnames.length
    exact ⟨Nat.succ_ne_zero k, by omega, hname k _ (List.getElem?_eq_getElem hk)⟩

/-! ## Runs -/

/-- **In every run the invariant holds.** -/
theorem run_interned {names : List (JSString × AtomType)} (hnames : Names names) :
    ∃ rt, JS_InitAtoms names = some rt ∧
      ∀ as, (program names rt).Meets Allowed (start names rt) as →
        ∃ r name, (program names rt).run (start names rt) as = some r ∧
          Interned (names.length + 1) r.1 name := by
  obtain ⟨rt, hrt, hcounted, hlabel⟩ :=
    JS_InitAtoms_numbers names hnames.distinct hnames.length
  refine ⟨rt, hrt, fun as has => ?_⟩
  obtain ⟨r, hr, name, hname⟩ := (program names rt).run_progress
    (I := fun s => ∃ name, Interned (names.length + 1) s name) (fun s a ⟨name, hI⟩ ha => by
      obtain ⟨s', hs', hI'⟩ := hI.step ha
      exact ⟨s', [], by show (step _ s a).map _ = _; rw [hs']; rfl, hI'⟩)
    as _ (hnames.interned hcounted hlabel) has
  exact ⟨r, name, hr, hname⟩

theorem Interned.atomString {JS_ATOM_END : ℕ} {s : Program} {name : ℕ → Name}
    (h : Interned JS_ATOM_END s name) {r : Reference} (hr : r ∈ s.atoms ++ s.values)
    {units : JString} {type : AtomType} (htext : r.2 = .text units type) :
    s.rt.atomString r.1 = some units := by
  rw [JSRuntime.atomString]
  obtain ⟨n, hn, rfl⟩ | ⟨h0, hname⟩ := h.number_or_entry hr
  · cases htext
    rw [atomFromUInt32_eq hn, if_pos (Nat.le_add_right _ _), Nat.add_sub_cancel_left]
  · have hlt := (h.lt_of_refs h0).2
    obtain ⟨⟨u, t⟩, hl⟩ := Option.isSome_iff_exists.mp (h.counted.label_isSome.mpr h0)
    rw [if_neg (by omega), hl]
    by_cases ht : t = .SYMBOL
    · subst ht
      obtain ⟨k, -, hk⟩ := h.symbol r.1 u hl
      rw [← hname, hk] at htext
      cases htext
    · rw [← hname, h.text r.1 u t hl ht] at htext
      cases htext
      rfl

theorem Counted.ref_count {rt : JSRuntime} {n : ℕ → ℕ} (h : Counted rt n) {i : ℕ} (hi : i ≠ 0) :
    (rt.get i).map JSAtomStruct.ref_count = if n i = 0 then none else some (n i) := by
  split_ifs with h0
  · have hnone := h.contents_eq_none h0
    rw [JSRuntime.contents, if_neg hi, Option.map_eq_none_iff] at hnone
    rw [hnone]
    rfl
  · obtain ⟨-, p, hp, hcount⟩ := h.exists_get h0
    rw [hp, ← hcount]
    rfl

/-- The entries that are not free are counted. -/
theorem Table.atom_count {rt : JSRuntime} (h : Table rt) :
    rt.atom_count = ((List.range rt.atom_size).filter fun i => (rt.get i).isSome).length := by
  obtain ⟨l, hl, hmem, hlength⟩ := h.free
  have hfree : l.length =
      ((List.range rt.atom_size).filter fun i => ¬(rt.get i).isSome).length := by
    refine List.Perm.length_eq ((List.perm_ext_iff_of_nodup hl.nodup
      (List.nodup_range.filter _)).mpr fun i => ?_)
    rw [hmem, List.mem_filter, List.mem_range, decide_eq_true_iff, Option.not_isSome_iff_eq_none]
    constructor
    · rintro ⟨-, hlt, hnone⟩
      exact ⟨hlt, hnone⟩
    · rintro ⟨hlt, hnone⟩
      refine ⟨?_, hlt, hnone⟩
      rintro rfl
      obtain h0 | ⟨-, p, hp, -⟩ := h.null
      · omega
      · rw [hnone] at hp
        cases hp
  have hsplit := List.length_eq_length_filter_add (l := List.range rt.atom_size)
    fun i => (rt.get i).isSome
  rw [List.length_range] at hsplit
  simp only [Bool.not_eq_true, Bool.decide_eq_false] at hfree
  omega

/-- **Atoms stand for texts.** In every run no call fails an assertion or uses an entry that is
    free, references are the same exactly where what they have been made of is, and those made of a
    text show this text. -/
theorem run_atoms {names : List (JSString × AtomType)} (hnames : Names names) :
    ∃ rt, JS_InitAtoms names = some rt ∧
      ∀ as, (program names rt).Meets Allowed (start names rt) as →
        ∃ r, (program names rt).run (start names rt) as = some r ∧
          (∀ a ∈ r.1.atoms ++ r.1.values, ∀ b ∈ r.1.atoms ++ r.1.values,
            a.1 = b.1 ↔ a.2 = b.2) ∧
          ∀ a ∈ r.1.atoms ++ r.1.values, ∀ units type, a.2 = .text units type →
            r.1.rt.atomString a.1 = some units := by
  obtain ⟨rt, hrt, hrun⟩ := run_interned hnames
  refine ⟨rt, hrt, fun as has => ?_⟩
  obtain ⟨r, name, hr, hI⟩ := hrun as has
  refine ⟨r, hr, fun a ha b hb => hI.eq_iff ha hb, fun a ha units type htext => ?_⟩
  exact hI.atomString ha htext

/-- A keyword, and a symbol. -/
def someNames : List (JSString × AtomType) :=
  [(.ofUnits (jstr "null"), .STRING), (.ofUnits (jstr "Symbol.iterator"), .SYMBOL)]

/-- A string that is used twice becomes an atom, a symbol is made, and the string is looked up. -/
def someActions : List Action :=
  [.newAtomStr (.string (.ofUnits (jstr "key")) 2) ⟨true, true, true⟩,
    .newSymbol .none .SYMBOL ⟨true, true, true⟩,
    .newAtomStr (.string (.ofUnits (jstr "key")) 1) ⟨true, false, true⟩]

theorem names_someNames : Names someNames where
  distinct := by
    refine List.pairwise_pair.mpr fun h => absurd rfl h
  length := by decide
  not_number p hp ht n hn hunits := by
    have hnone : ∀ p ∈ someNames, is_num_string p.1 = none := by decide
    have := is_num_string_eq_some.mpr ⟨hunits, by omega⟩
    rw [hnone p hp] at this
    cases this
  not_global := by decide

theorem JS_InitAtoms_someNames :
    ∃ rt, JS_InitAtoms someNames = some rt ∧
      Counted rt (fun i => if i ≠ 0 ∧ i ≤ someNames.length then 1 else 0) ∧
      ∀ i p, someNames[i]? = some p → rt.label (i + 1) = some (p.1.units, p.2.stored) :=
  JS_InitAtoms_numbers someNames names_someNames.distinct names_someNames.length

theorem meets_someActions (rt : JSRuntime) :
    (program someNames rt).Meets Allowed (start someNames rt) someActions :=
  ⟨two_ne_zero, fun _ _ => ⟨.inl rfl, fun _ _ => ⟨one_ne_zero, fun _ _ => trivial⟩⟩⟩

theorem run_atoms_someNames :
    ∃ rt, JS_InitAtoms someNames = some rt ∧
      ∃ r, (program someNames rt).run (start someNames rt) someActions = some r ∧
        (∀ a ∈ r.1.atoms ++ r.1.values, ∀ b ∈ r.1.atoms ++ r.1.values, a.1 = b.1 ↔ a.2 = b.2) ∧
        ∀ a ∈ r.1.atoms ++ r.1.values, ∀ units type, a.2 = .text units type →
          r.1.rt.atomString a.1 = some units := by
  obtain ⟨rt, hrt, hrun⟩ := run_atoms names_someNames
  exact ⟨rt, hrt, hrun someActions (meets_someActions rt)⟩

/-- **Entries count their references.** In every run an entry is in use exactly as long as there are
    references to it, and the predefined ones always; it counts them, and the table counts the
    entries in use. -/
theorem run_counts {names : List (JSString × AtomType)} (hnames : Names names) :
    ∃ rt, JS_InitAtoms names = some rt ∧
      ∀ as, (program names rt).Meets Allowed (start names rt) as →
        ∃ r, (program names rt).run (start names rt) as = some r ∧
          (∀ i ≠ 0, (r.1.rt.get i).map JSAtomStruct.ref_count =
            if r.1.refs (names.length + 1) i = 0 then none
            else some (r.1.refs (names.length + 1) i)) ∧
          r.1.rt.atom_count =
            ((List.range r.1.rt.atom_size).filter fun i => (r.1.rt.get i).isSome).length := by
  obtain ⟨rt, hrt, hrun⟩ := run_interned hnames
  refine ⟨rt, hrt, fun as has => ?_⟩
  obtain ⟨r, name, hr, hI⟩ := hrun as has
  exact ⟨r, hr, fun i hi => hI.counted.ref_count hi, hI.counted.table.atom_count⟩

theorem run_counts_someNames :
    ∃ rt, JS_InitAtoms someNames = some rt ∧
      ∃ r, (program someNames rt).run (start someNames rt) someActions = some r ∧
        (∀ i ≠ 0, (r.1.rt.get i).map JSAtomStruct.ref_count =
          if r.1.refs (someNames.length + 1) i = 0 then none
          else some (r.1.refs (someNames.length + 1) i)) ∧
        r.1.rt.atom_count =
          ((List.range r.1.rt.atom_size).filter fun i => (r.1.rt.get i).isSome).length := by
  obtain ⟨rt, hrt, hrun⟩ := run_counts names_someNames
  exact ⟨rt, hrt, hrun someActions (meets_someActions rt)⟩

/-! ## C strings -/

/-- **The atom of a C string has its text**, in every state of every run, unless its bytes are not
    ASCII, do not start with a digit, and are those of a string atom of 8 bits. -/
theorem run_JS_NewAtomLen {names : List (JSString × AtomType)} (hnames : Names names) :
    ∃ rt, JS_InitAtoms names = some rt ∧
      ∀ as, (program names rt).Meets Allowed (start names rt) as →
        ∃ r, (program names rt).run (start names rt) as = some r ∧
          ∀ str : List ℕ, (∀ b ∈ str, b < 256) → ∀ string m, ∃ rt' v,
            r.1.rt.JS_NewAtomLen2 (names.length + 1) str .STRING string m = some (rt', v) ∧
              (v ≠ 0 → (rt'.atomString v = some (JS_NewStringLen str).units ↔
                (∀ b ∈ str, b < 128) ∨ StartsWithDigit str ∨ ¬r.1.rt.HasBytes str)) := by
  obtain ⟨rt, hrt, hrun⟩ := run_interned hnames
  refine ⟨rt, hrt, fun as has => ?_⟩
  obtain ⟨r, name, hr, hI⟩ := hrun as has
  exact ⟨r, hr, fun str hbytes string m => hI.counted.JS_NewAtomLen _ hbytes string m⟩

theorem run_JS_NewAtomLen_someNames :
    ∃ rt, JS_InitAtoms someNames = some rt ∧
      ∃ r, (program someNames rt).run (start someNames rt) someActions = some r ∧
        ∃ rt' v, r.1.rt.JS_NewAtomLen2 (someNames.length + 1) [0xC3, 0xA9] .STRING true
            ⟨true, true, true⟩ = some (rt', v) ∧
          (v ≠ 0 → (rt'.atomString v = some (JS_NewStringLen [0xC3, 0xA9]).units ↔
            (∀ b ∈ [0xC3, 0xA9], b < 128) ∨ StartsWithDigit [0xC3, 0xA9] ∨
              ¬r.1.rt.HasBytes [0xC3, 0xA9])) := by
  obtain ⟨rt, hrt, hrun⟩ := run_JS_NewAtomLen names_someNames
  obtain ⟨r, hr, hbytes⟩ := hrun someActions (meets_someActions rt)
  exact ⟨rt, hrt, r, hr, hbytes [0xC3, 0xA9] (by decide) true ⟨true, true, true⟩⟩

/-- **The private symbol of a C string is a new one**, in every state of every run, unless the
    string is a number or its bytes are those of a string atom of 8 bits. -/
theorem run_JS_NewAtomLenPrivate {names : List (JSString × AtomType)} (hnames : Names names) :
    ∃ rt, JS_InitAtoms names = some rt ∧
      ∀ as, (program names rt).Meets Allowed (start names rt) as →
        ∃ r, (program names rt).run (start names rt) as = some r ∧
          ∀ str : List ℕ, (∀ b ∈ str, b < 256) → ∀ string m, ∃ rt' v,
            r.1.rt.JS_NewAtomLen2 (names.length + 1) str .PRIVATE string m = some (rt', v) ∧
              (v ≠ 0 →
                (r.1.rt.label v = none ∧
                    rt'.label v = some ((JS_NewStringLen str).units, .SYMBOL) ↔
                  (∀ k : ℕ, k < 2 ^ 31 → (JS_NewStringLen str).units ≠ decimal k) ∧
                    (StartsWithDigit str ∨ ¬r.1.rt.HasBytes str))) := by
  obtain ⟨rt, hrt, hrun⟩ := run_interned hnames
  refine ⟨rt, hrt, fun as has => ?_⟩
  obtain ⟨r, name, hr, hI⟩ := hrun as has
  exact ⟨r, hr, fun str hbytes string m => hI.counted.JS_NewAtomLenPrivate _ hbytes string m⟩

theorem run_JS_NewAtomLenPrivate_someNames :
    ∃ rt, JS_InitAtoms someNames = some rt ∧
      ∃ r, (program someNames rt).run (start someNames rt) someActions = some r ∧
        ∃ rt' v, r.1.rt.JS_NewAtomLen2 (someNames.length + 1) [0x6B, 0x65, 0x79] .PRIVATE true
            ⟨true, true, true⟩ = some (rt', v) ∧
          (v ≠ 0 →
            (r.1.rt.label v = none ∧
                rt'.label v = some ((JS_NewStringLen [0x6B, 0x65, 0x79]).units, .SYMBOL) ↔
              (∀ k : ℕ, k < 2 ^ 31 → (JS_NewStringLen [0x6B, 0x65, 0x79]).units ≠ decimal k) ∧
                (StartsWithDigit [0x6B, 0x65, 0x79] ∨
                  ¬r.1.rt.HasBytes [0x6B, 0x65, 0x79]))) := by
  obtain ⟨rt, hrt, hrun⟩ := run_JS_NewAtomLenPrivate names_someNames
  obtain ⟨r, hr, hbytes⟩ := hrun someActions (meets_someActions rt)
  exact ⟨rt, hrt, r, hr, hbytes [0x6B, 0x65, 0x79] (by decide) true ⟨true, true, true⟩⟩

end JSEngine.Atoms
