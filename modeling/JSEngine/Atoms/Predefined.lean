import JSEngine.Atoms.Counting

/-!
# The predefined atoms

A new runtime makes the atoms of `quickjs-atom.h`, one after the other (quickjs.c:2560-2587). The
enumeration that the code uses for them starts with 1.

* `JS_InitAtoms_numbers`: each name gets the number that it has in the enumeration.
-/

namespace JSEngine.Atoms

open JSEngine.Common.Chains
open JSEngine.Scalars (JSString)

/-- The runtime before its first atom. -/
def JSRuntime.empty : JSRuntime where
  atom_hash_size := 0
  atom_count := 0
  atom_size := 0
  atom_count_resize := 0
  atom_hash _ := 0
  atom_array _ := .free 0
  atom_free_index := 0

/-- The loop of `JS_InitAtoms` (lines 2573-2585), where there is memory. -/
def initLoop (JS_ATOM_END : ℕ) (rt : JSRuntime) (names : List (JSString × AtomType)) :
    Option JSRuntime :=
  names.foldlM (fun rt p =>
    (rt.newAtom JS_ATOM_END (.string p.1 1) p.2 ⟨true, true, true⟩).bind fun r =>
      if r.2 = 0 then none else some r.1) rt

/-- `JS_InitAtoms` (lines 2560-2587). -/
def JS_InitAtoms (names : List (JSString × AtomType)) : Option JSRuntime :=
  (JSRuntime.empty.JS_ResizeAtomHash 256 true).bind fun rt =>
    initLoop (names.length + 1) rt names

/-- The names so far have the first numbers, and the free entries come in order. -/
structure Numbered (names : List (JSString × AtomType)) (rt : JSRuntime) : Prop where
  counted : Counted rt (fun i => if i ≠ 0 ∧ i ≤ names.length then 1 else 0)
  label : ∀ i p, names[i]? = some p → rt.label (i + 1) = some (p.1.units, p.2.stored)
  free : Chain rt.freeNext rt.atom_free_index
    (List.range' (names.length + 1) (rt.atom_size - (names.length + 1)))
  size : names.length + 1 ≤ rt.atom_size ∨ names = [] ∧ rt.atom_size = 0

/-- No two names that are looked up are the same. -/
def Distinct (names : List (JSString × AtomType)) : Prop :=
  names.Pairwise fun p q =>
    q.2.stored ≠ .SYMBOL → (p.1.units, p.2.stored) ≠ (q.1.units, q.2.stored)

namespace Numbered

variable {names : List (JSString × AtomType)} {rt rt' : JSRuntime}

/-- The first free entry. -/
theorem first (h : Numbered names rt) (hindex : rt.atom_free_index ≠ 0) :
    rt.atom_free_index = names.length + 1 ∧ names.length + 1 < rt.atom_size ∧
      ∃ next, rt.freeNext rt.atom_free_index = some next ∧
        Chain rt.freeNext next
          (List.range' (names.length + 2) (rt.atom_size - (names.length + 2))) := by
  have hfree := h.free
  cases hm : rt.atom_size - (names.length + 1) with
  | zero =>
    rw [hm] at hfree
    exact absurd hfree.eq_zero hindex
  | succ m =>
    rw [hm, List.range'_succ] at hfree
    obtain ⟨hfirst, -, next, hnext, hrest⟩ := hfree.inv
    refine ⟨hfirst, by omega, next, hfirst ▸ hnext, ?_⟩
    rwa [show rt.atom_size - (names.length + 2) = m by omega]

/-- The next free entry is that of the next number. -/
theorem grow (h : Numbered names rt) (hlength : names.length < 2 ^ 29) :
    ∃ rt', (if rt.atom_free_index = 0 then rt.grow true else some rt) = some rt' ∧
      Numbered names rt' ∧ rt'.atom_free_index = names.length + 1 := by
  by_cases hindex : rt.atom_free_index = 0
  · rw [if_pos hindex]
    have hfree := h.free
    rw [hindex] at hfree
    have hnil := congrArg List.length hfree.eq_nil
    rw [List.length_range', List.length_nil] at hnil
    have hsize : max 1 rt.atom_size = names.length + 1 := by
      obtain hsize | ⟨rfl, hsize⟩ := h.size
      · omega
      · rw [hsize]
        rfl
    have hroom : ∃ rt', rt.grow true = some rt' := by
      rw [JSRuntime.grow, if_neg (by simp; omega)]
      exact ⟨_, rfl⟩
    obtain ⟨rt', hrt'⟩ := hroom
    obtain ⟨htable, hcontents, hindex', hlt, hchain⟩ := h.counted.table.grow hindex hrt'
    rw [hsize] at hindex'
    rw [hindex'] at hchain hlt
    refine ⟨rt', hrt', ⟨⟨htable, fun i => ?_, fun i c hc => ?_⟩, fun i p hp => ?_, ?_, .inl hlt.le⟩,
      hindex'⟩
    · rw [hcontents]
      exact h.counted.count i
    · exact h.counted.pos i c (hcontents ▸ hc)
    · rw [JSRuntime.label, hcontents]
      exact h.label i p hp
    · rw [hindex']
      exact hchain
  · rw [if_neg hindex]
    exact ⟨rt, rfl, h, (h.first hindex).1⟩

/-- **One more name.** -/
theorem newAtom (h : Numbered names rt) (hlength : names.length < 2 ^ 29) (JS_ATOM_END : ℕ)
    {str : JSString} {atom_type : AtomType} (hnew : atom_type.stored ≠ .SYMBOL →
      ∀ p ∈ names, (p.1.units, p.2.stored) ≠ (str.units, atom_type.stored)) :
    ∃ rt', rt.newAtom JS_ATOM_END (.string str 1) atom_type ⟨true, true, true⟩ =
      some (rt', names.length + 1) ∧ Numbered (names ++ [(str, atom_type)]) rt' := by
  -- no entry has the label yet
  have hlabel : atom_type.stored ≠ .SYMBOL → ∀ {rt}, Numbered names rt →
      ∀ i, rt.label i ≠ some (str.units, atom_type.stored) := by
    intro htype rt h i hi
    have hn := h.counted.ne_zero_of_label hi
    split_ifs at hn with hi'
    · obtain ⟨i, rfl⟩ := Nat.exists_eq_succ_of_ne_zero hi'.1
      have hlt : i < names.length := hi'.2
      rw [Nat.succ_eq_add_one, h.label i names[i] (List.getElem?_eq_getElem hlt)] at hi
      exact hnew htype _ (List.getElem_mem hlt) (Option.some.inj hi)
    · exact hn rfl
  obtain ⟨rt₁, hrt₁, h₁, hindex₁⟩ := h.grow hlength
  have hadd : ∀ hash, (atom_type.stored ≠ .SYMBOL → hash = hashOf str atom_type.stored) →
      ∃ rt', rt.addAtom (.string str 1) hash atom_type.stored ⟨true, true, true⟩ =
        some (rt', names.length + 1) ∧ Numbered (names ++ [(str, atom_type)]) rt' := by
    intro hash hhash
    have hprivate : atom_type.stored ≠ .PRIVATE := by cases atom_type <;> decide
    obtain ⟨rt', hrt', htable, hused, -, hnone, hcontents⟩ := h₁.counted.table.useEntry
      (by omega) str 1 true hprivate hhash fun htype i p hp htype' hunits => by
        have hi : i ≠ 0 := by
          rintro rfl
          exact htype (htype'.symm.trans (h₁.counted.table.zero hp))
        have := Counted.label_of_get hi hp
        rw [hunits, htype'] at this
        exact hlabel htype h₁ i this
    have hrun : rt.addAtom (.string str 1) hash atom_type.stored ⟨true, true, true⟩ =
        some (rt', names.length + 1) := by
      rw [JSRuntime.addAtom]
      simp only [hrt₁, JSRuntime.makeEntry]
      rw [hrt', hindex₁]
    obtain ⟨-, hlt, next, hnext, hrest⟩ := h₁.first (by omega)
    obtain rfl := Option.some.inj (hnext.symm.trans hused.index)
    have hlabel' : ∀ i, rt'.label i = if i = names.length + 1
        then some (str.units, atom_type.stored) else rt₁.label i := fun i => by
      rw [JSRuntime.label, hcontents, hindex₁, Function.update_apply]
      split_ifs <;> rfl
    refine ⟨rt', hrun, ⟨?_, fun i p hp => ?_, ?_, .inl ?_⟩⟩
    · refine (h₁.counted.of_contents htable hcontents fun d hd => ?_).congr fun i => ?_
      · rw [← Option.some.inj hd]
        exact one_ne_zero
      · rw [hindex₁, Function.update_apply, List.length_append, List.length_singleton]
        split_ifs <;> first | rfl | omega
    · rw [hlabel']
      obtain hi | hi := lt_or_ge i names.length
      · rw [List.getElem?_append_left hi] at hp
        rw [if_neg (by omega), h₁.label i p hp]
      · have hlast : i = names.length := by
          have := (List.getElem?_eq_some_iff.mp hp).1
          rw [List.length_append, List.length_singleton] at this
          omega
        subst hlast
        rw [List.getElem?_concat_length] at hp
        rw [if_pos rfl, ← Option.some.inj hp]
    · rw [List.length_append, List.length_singleton, hused.size]
      refine hrest.congr fun y hy => hused.next y ?_
      have := List.mem_range'_1.mp hy
      omega
    · rw [List.length_append, List.length_singleton, hused.size]
      omega
  -- the search of the chain finds nothing
  have hfind : atom_type.stored ≠ .SYMBOL → ∃ rt',
      rt.findOrAdd JS_ATOM_END (.string str 1) str atom_type.stored ⟨true, true, true⟩ =
        some (rt', names.length + 1) ∧ Numbered (names ++ [(str, atom_type)]) rt' := by
    intro htype
    obtain ⟨r, hr, hfound, -⟩ := h.counted.table.find str atom_type.stored htype
    have hr0 : r = 0 := by
      by_contra hr0
      obtain ⟨p, hp, htype', hunits⟩ := hfound hr0
      have := Counted.label_of_get hr0 hp
      rw [hunits, htype'] at this
      exact hlabel htype h r this
    subst hr0
    simp only [JSRuntime.findOrAdd, hr]
    exact hadd _ fun _ => rfl
  cases atom_type with
  | STRING => exact hfind (by decide)
  | GLOBAL_SYMBOL => exact hfind (by decide)
  | SYMBOL => exact hadd 0 fun h => absurd rfl h
  | PRIVATE => exact hadd 1 fun h => absurd rfl h

end Numbered

/-- The runtime with an empty hash table. -/
theorem exists_numbered_nil : ∃ rt, JSRuntime.empty.JS_ResizeAtomHash 256 true = some rt ∧
    Numbered [] rt := by
  refine ⟨{ JSRuntime.empty with atom_hash_size := 256, atom_count_resize := 512 }, rfl, ?_⟩
  generalize hrt : ({ JSRuntime.empty with
    atom_hash_size := 256, atom_count_resize := 512 } : JSRuntime) = rt
  have hget : ∀ i, rt.get i = none := fun i => hrt ▸ rfl
  have hnot : ∀ {i p}, rt.get i ≠ some p := fun h => by
    rw [hget] at h
    cases h
  have hhashed : rt.hashed = ∅ := Set.eq_empty_of_forall_notMem fun i ⟨_, hp, _⟩ => hnot hp
  have hcontents : ∀ i, rt.contents i = none := fun i => by
    rw [JSRuntime.contents, hget, Option.map_none, ite_self]
  have htable : Table rt :=
    { links := by
        rw [hhashed, show rt.links.Holds = Links.Holds ⟨rt.links.next, fun _ => 0⟩ by rw [← hrt]; rfl]
        exact holds_empty _ _ _
      free := ⟨[], by rw [← hrt]; exact .nil, fun i => by rw [← hrt]; simp [JSRuntime.empty],
        by rw [← hrt]; rfl⟩
      bound := fun _ _ h => absurd h hnot
      null := .inl (by rw [← hrt]; rfl)
      symbol := fun _ _ h => absurd h hnot
      not_private := fun _ _ h => absurd h hnot
      hash := fun _ _ h => absurd h hnot
      unique := fun _ _ _ _ h => absurd h hnot
      power := ⟨8, by rw [← hrt]; rfl⟩
      size := by rw [← hrt]; decide }
  refine ⟨⟨htable, fun i => ?_, fun i c hc => ?_⟩, fun i p hp => ?_, ?_, .inr ⟨rfl, ?_⟩⟩
  · rw [hcontents, Option.map_none, Option.getD_none]
    split_ifs with h
    · have := h.2
      rw [List.length_nil] at this
      omega
    · rfl
  · rw [hcontents] at hc
    cases hc
  · cases hp
  · rw [← hrt]
    exact .nil
  · rw [← hrt]
    rfl

theorem initLoop_numbers (JS_ATOM_END : ℕ) {done names : List (JSString × AtomType)}
    {rt : JSRuntime} (h : Numbered done rt) (hdistinct : Distinct (done ++ names))
    (hlength : (done ++ names).length < 2 ^ 29) :
    ∃ rt', initLoop JS_ATOM_END rt names = some rt' ∧ Numbered (done ++ names) rt' := by
  induction names generalizing done rt with
  | nil => exact ⟨rt, rfl, by rwa [List.append_nil]⟩
  | cons p names ih =>
    obtain ⟨str, atom_type⟩ := p
    have hsplit : done ++ (str, atom_type) :: names = (done ++ [(str, atom_type)]) ++ names := by
      simp
    obtain ⟨rt₁, hrt₁, h₁⟩ := h.newAtom (by simp at hlength; omega) JS_ATOM_END fun htype q hq =>
      (List.pairwise_append.mp hdistinct).2.2 q hq _ (List.mem_cons_self ..) htype
    rw [hsplit] at hdistinct hlength ⊢
    obtain ⟨rt', hrt', h'⟩ := ih h₁ hdistinct hlength
    refine ⟨rt', ?_, h'⟩
    rw [initLoop, List.foldlM_cons, hrt₁]
    exact hrt'

/-- **The predefined names get the numbers of the enumeration.** -/
theorem JS_InitAtoms_numbers (names : List (JSString × AtomType)) (hdistinct : Distinct names)
    (hlength : names.length < 2 ^ 29) :
    ∃ rt, JS_InitAtoms names = some rt ∧
      Counted rt (fun i => if i ≠ 0 ∧ i ≤ names.length then 1 else 0) ∧
      ∀ i p, names[i]? = some p → rt.label (i + 1) = some (p.1.units, p.2.stored) := by
  obtain ⟨rt₀, hrt₀, h₀⟩ := exists_numbered_nil
  obtain ⟨rt, hrt, h⟩ := initLoop_numbers (names.length + 1) h₀ hdistinct hlength
  exact ⟨rt, by rw [JS_InitAtoms, hrt₀]; exact hrt, h.counted, h.label⟩

end JSEngine.Atoms
