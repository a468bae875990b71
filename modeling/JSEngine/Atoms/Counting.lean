import JSEngine.Atoms.Entries

/-!
# References to atoms

Each entry counts the references to it. A call takes over the reference to the string that it is
given, and gives one to the atom that it returns.

* `Counted.release`: only an entry without a reference is freed, and the others keep their texts;
* `Counted.newAtom`: the atom has the text and type asked for, whether it is found or made, and
  every other entry that is still referred to is left as it is.
-/

namespace JSEngine.Atoms

open JSEngine.Common.Chains
open JSEngine.Java (JString)
open JSEngine.Scalars (JSString)

/-- What an entry is known by. -/
abbrev Label := JString × AtomType

/-- The text and type of an entry. -/
def JSRuntime.label (rt : JSRuntime) (i : ℕ) : Option Label :=
  (rt.contents i).map fun c => (c.str.units, c.atom_type)

/-- The table, where each entry is referred to as often as `n` says. -/
structure Counted (rt : JSRuntime) (n : ℕ → ℕ) : Prop where
  table : Table rt
  count : ∀ i, ((rt.contents i).map Content.ref_count).getD 0 = n i
  pos : ∀ i c, rt.contents i = some c → c.ref_count ≠ 0

namespace Counted

variable {rt rt' : JSRuntime} {n : ℕ → ℕ} {i j : ℕ} {l : Label}

theorem congr (h : Counted rt n) {n' : ℕ → ℕ} (hn : ∀ i, n' i = n i) : Counted rt n' :=
  ⟨h.table, fun i => (h.count i).trans (hn i).symm, h.pos⟩

/-- An entry that is referred to. -/
theorem exists_get (h : Counted rt n) (hi : n i ≠ 0) :
    i ≠ 0 ∧ ∃ p, rt.get i = some p ∧ p.ref_count = n i := by
  have hcount := h.count i
  cases hc : rt.contents i with
  | none =>
    rw [hc] at hcount
    exact absurd hcount.symm hi
  | some c =>
    rw [hc] at hcount
    obtain ⟨hi0, p, hp, rfl⟩ := contents_eq_some.mp hc
    exact ⟨hi0, p, hp, hcount⟩

/-- An entry that is not referred to is free. -/
theorem contents_eq_none (h : Counted rt n) (hi : n i = 0) : rt.contents i = none := by
  have hcount := h.count i
  cases hc : rt.contents i with
  | none => rfl
  | some c =>
    rw [hc, hi] at hcount
    exact absurd hcount (h.pos i c hc)

theorem label_isSome (h : Counted rt n) : (rt.label i).isSome ↔ n i ≠ 0 := by
  rw [JSRuntime.label, Option.isSome_map]
  constructor
  · intro hsome hi
    rw [h.contents_eq_none hi] at hsome
    cases hsome
  · intro hi
    obtain ⟨hi0, p, hp, -⟩ := h.exists_get hi
    rw [(contents_eq_some (c := p.content)).mpr ⟨hi0, p, hp, rfl⟩]
    rfl

theorem ne_zero_of_label (h : Counted rt n) (hl : rt.label i = some l) : n i ≠ 0 :=
  h.label_isSome.mp (hl ▸ rfl)

/-- An entry with a label. -/
theorem get_of_label (hl : rt.label i = some l) :
    i ≠ 0 ∧ ∃ p, rt.get i = some p ∧ p.str.units = l.1 ∧ p.atom_type = l.2 := by
  obtain ⟨c, hc, rfl⟩ := Option.map_eq_some_iff.mp hl
  obtain ⟨hi, p, hp, rfl⟩ := contents_eq_some.mp hc
  exact ⟨hi, p, hp, rfl, rfl⟩

theorem label_of_get {p : JSAtomStruct} (hi : i ≠ 0) (hp : rt.get i = some p) :
    rt.label i = some (p.str.units, p.atom_type) := by
  rw [JSRuntime.label, (contents_eq_some (c := p.content)).mpr ⟨hi, p, hp, rfl⟩]
  rfl

/-- Strings and global symbols are told apart by their labels. -/
theorem label_unique (h : Counted rt n) (hi : rt.label i = some l) (hj : rt.label j = some l)
    (htype : l.2 ≠ .SYMBOL) : i = j := by
  obtain ⟨-, p, hp, hpunits, hptype⟩ := get_of_label hi
  obtain ⟨-, q, hq, hqunits, hqtype⟩ := get_of_label hj
  exact h.table.unique i j p q hp hq (hptype ▸ htype) (hptype.trans hqtype.symm)
    (hpunits.trans hqunits.symm)

/-- The table after the content of one entry has changed. -/
theorem of_contents (h : Counted rt n) (ht : Table rt') {c : Option Content}
    (hcontents : rt'.contents = Function.update rt.contents i c)
    (hc : ∀ d, c = some d → d.ref_count ≠ 0) :
    Counted rt' (Function.update n i ((c.map Content.ref_count).getD 0)) where
  table := ht
  count j := by
    rw [hcontents, Function.update_apply, Function.update_apply]
    split_ifs
    · rfl
    · exact h.count j
  pos j d hd := by
    rw [hcontents, Function.update_apply] at hd
    split_ifs at hd
    · exact hc d hd
    · exact h.pos j d hd

/-! ## Taking and giving up a reference -/

theorem retain (h : Counted rt n) (hi : n i ≠ 0) :
    ∃ rt', rt.retain i = some rt' ∧ Counted rt' (Function.update n i (n i + 1)) ∧
      rt'.label = rt.label := by
  obtain ⟨hi0, p, hp, hcount⟩ := h.exists_get hi
  obtain ⟨rt', hrt', htable, hcontents⟩ := h.table.retain hp hi0
  refine ⟨rt', hrt', ?_, ?_⟩
  · rw [← hcount]
    exact h.of_contents htable hcontents fun d hd => by simp [← Option.some.inj hd]
  · funext j
    rw [JSRuntime.label, hcontents, Function.update_apply]
    split_ifs with hj
    · rw [hj, label_of_get hi0 hp]
      rfl
    · rfl

theorem decrement (h : Counted rt n) (hi : 1 < n i) :
    ∃ rt', rt.decrement i = some rt' ∧ Counted rt' (Function.update n i (n i - 1)) ∧
      rt'.label = rt.label := by
  obtain ⟨hi0, p, hp, hcount⟩ := h.exists_get (Nat.ne_zero_of_lt hi)
  obtain ⟨rt', hrt', htable, -, hcontents⟩ := h.table.decrement hp hi0
  refine ⟨rt', hrt', ?_, ?_⟩
  · rw [← hcount] at hi ⊢
    exact h.of_contents htable hcontents fun d hd => by
      rw [← Option.some.inj hd]
      exact Nat.sub_ne_zero_of_lt hi
  · funext j
    rw [JSRuntime.label, hcontents, Function.update_apply]
    split_ifs with hj
    · rw [hj, label_of_get hi0 hp]
      rfl
    · rfl

/-- **A reference is given up**: the entry is freed with the last. -/
theorem release (h : Counted rt n) (hi : n i ≠ 0) :
    ∃ rt', rt.release i = some rt' ∧ Counted rt' (Function.update n i (n i - 1)) ∧
      (∀ j, Function.update n i (n i - 1) j ≠ 0 → rt'.label j = rt.label j) ∧
      (rt.atom_free_index ≠ 0 → rt'.atom_free_index ≠ 0) := by
  obtain ⟨hi0, p, hp, hcount⟩ := h.exists_get hi
  obtain ⟨rt', hrt', htable, hindex, hcontents⟩ := h.table.release hp hi0
  refine ⟨rt', hrt', ?_, fun j hj => ?_, hindex⟩
  · have hcounted := h.of_contents htable hcontents fun d hd => by
      split_ifs at hd with h1
      rw [← Option.some.inj hd]
      exact Nat.sub_ne_zero_of_lt h1
    refine hcounted.congr fun j => ?_
    rw [Function.update_apply, Function.update_apply, ← hcount]
    split_ifs
    · rfl
    · show _ = 0
      omega
    · rfl
  · rw [JSRuntime.label, hcontents, Function.update_apply]
    rw [Function.update_apply] at hj
    split_ifs at hj ⊢ with hji h1
    · rw [hji, label_of_get hi0 hp]
      rfl
    · omega
    · rfl

end Counted

/-! ## What an atom is made of -/

/-- The caller has a reference to the string. -/
def Source.Held (n : ℕ → ℕ) : Source → Prop
  | .string _ k => k ≠ 0
  | .entry i => n i ≠ 0
  | .null => True

/-- The references without the one to the string. -/
def Source.others (n : ℕ → ℕ) : Source → ℕ → ℕ
  | .entry i => Function.update n i (n i - 1)
  | .string _ _ | .null => n

/-- The references to a new entry: those to the string, if it is the entry itself. -/
def Source.gain : Source → ℕ
  | .string _ k => k
  | .entry _ | .null => 1

theorem Source.others_le (n : ℕ → ℕ) (source : Source) (i : ℕ) : source.others n i ≤ n i := by
  cases source with
  | string _ _ => exact le_rfl
  | null => exact le_rfl
  | entry j =>
    rw [Source.others, Function.update_apply]
    split_ifs with hi
    · rw [hi]
      exact Nat.sub_le _ _
    · exact le_rfl

theorem Source.gain_ne_zero {n : ℕ → ℕ} {source : Source} (hs : source.Held n) :
    source.gain ≠ 0 := by
  cases source with
  | string _ _ => exact hs
  | entry _ => exact one_ne_zero
  | null => exact one_ne_zero

/-- The references after an atom `v` has been given for the string: those to a new entry, or one
    more to an entry that is counted. -/
def Source.gained (JS_ATOM_END : ℕ) (n : ℕ → ℕ) (source : Source) (v : ℕ) : ℕ → ℕ :=
  Function.update (source.others n) v
    (if source.others n v = 0 then source.gain
      else source.others n v + if isConst JS_ATOM_END v then 0 else 1)

/-- The type of the entry of an atom. -/
def AtomType.stored : AtomType → AtomType
  | .PRIVATE => .SYMBOL
  | t => t

/-- The entries that are referred to keep their texts. -/
def Stays (n : ℕ → ℕ) (rt rt' : JSRuntime) : Prop := ∀ i, n i ≠ 0 → rt'.label i = rt.label i

namespace Counted

variable {rt rt' : JSRuntime} {n : ℕ → ℕ} {source : Source} {str : JSString} {hash : UInt32}
  {atom_type : AtomType}

theorem js_free_string (h : Counted rt n) (hs : source.Held n) :
    ∃ rt', rt.js_free_string source = some rt' ∧ Counted rt' (source.others n) ∧
      Stays (source.others n) rt rt' := by
  cases source with
  | string _ _ => exact ⟨rt, rfl, h, fun _ _ => rfl⟩
  | null => exact ⟨rt, rfl, h, fun _ _ => rfl⟩
  | entry i =>
    obtain ⟨rt', hrt', hcounted, hstays, -⟩ := h.release hs
    exact ⟨rt', hrt', hcounted, hstays⟩

theorem exists_text (h : Counted rt n) (hs : source.Held n) : ∃ str, rt.text source = some str := by
  cases source with
  | string str _ => exact ⟨str, rfl⟩
  | null => exact ⟨_, rfl⟩
  | entry i =>
    obtain ⟨-, p, hp, -⟩ := h.exists_get hs
    exact ⟨p.str, by rw [JSRuntime.text, hp]; rfl⟩

/-- There is a free entry, if there is room for more. -/
theorem grow (h : Counted rt n) {array : Bool}
    (hrt' : (if rt.atom_free_index = 0 then rt.grow array else some rt) = some rt') :
    Counted rt' n ∧ rt'.atom_free_index ≠ 0 ∧ rt'.contents = rt.contents := by
  split_ifs at hrt' with hindex
  · obtain ⟨htable, hcontents, hindex', -, -⟩ := h.table.grow hindex hrt'
    refine ⟨⟨htable, fun i => ?_, fun i c hc => ?_⟩, by omega, hcontents⟩
    · rw [hcontents]
      exact h.count i
    · exact h.pos i c (hcontents ▸ hc)
  · obtain rfl := Option.some.inj hrt'
    exact ⟨h, hindex, rfl⟩

theorem text_congr (h : Counted rt n) (h' : Counted rt' n) (hs : source.Held n)
    (hcontents : rt'.contents = rt.contents) : rt'.text source = rt.text source := by
  cases source with
  | string _ _ => rfl
  | null => rfl
  | entry i =>
    obtain ⟨hi, p, hp, -⟩ := h.exists_get hs
    obtain ⟨-, q, hq, -⟩ := h'.exists_get hs
    have hcontent := congrFun hcontents i
    rw [JSRuntime.contents, JSRuntime.contents, if_neg hi, if_neg hi, hp, hq] at hcontent
    rw [JSRuntime.text, JSRuntime.text, hp, hq]
    exact congrArg (Option.map Content.str) hcontent

theorem makeEntry (h : Counted rt n) (hs : source.Held n) (htext : rt.text source = some str)
    (hindex : rt.atom_free_index ≠ 0) (entry : Bool) :
    rt.makeEntry source entry = some none ∨
      ∃ rt', rt.makeEntry source entry = some (some (rt', str, source.gain)) ∧
        Counted rt' (source.others n) ∧ Stays (source.others n) rt rt' ∧
        rt'.atom_free_index ≠ 0 := by
  cases source with
  | string str' k =>
    obtain rfl := Option.some.inj htext
    exact .inr ⟨rt, rfl, h, fun _ _ => rfl, hindex⟩
  | null =>
    obtain rfl := Option.some.inj htext
    cases entry with
    | false => exact .inl rfl
    | true => exact .inr ⟨rt, rfl, h, fun _ _ => rfl, hindex⟩
  | entry i =>
    obtain ⟨-, p, hp, -⟩ := h.exists_get hs
    rw [JSRuntime.text, hp] at htext
    obtain rfl := Option.some.inj htext
    rw [JSRuntime.makeEntry, hp]
    cases entry with
    | false => exact .inl rfl
    | true =>
      obtain ⟨rt', hrt', hcounted, hstays, hindex'⟩ := h.release hs
      exact .inr ⟨rt', by rw [hrt']; rfl, hcounted, hstays, hindex' hindex⟩

/-- A text that is not there yet gets an entry, if there is room for it. -/
theorem addAtom (h : Counted rt n) (hs : source.Held n) (htext : rt.text source = some str)
    (hprivate : atom_type ≠ .PRIVATE) (hhash : atom_type ≠ .SYMBOL → hash = hashOf str atom_type)
    (hnew : atom_type ≠ .SYMBOL → ∀ i, rt.label i ≠ some (str.units, atom_type)) (m : Memory) :
    ∃ rt' v, rt.addAtom source hash atom_type m = some (rt', v) ∧
      Stays (source.others n) rt rt' ∧
      (v = 0 ∧ Counted rt' (source.others n) ∨
        v ≠ 0 ∧ v < 2 ^ 30 ∧ source.others n v = 0 ∧
          Counted rt' (Function.update (source.others n) v source.gain) ∧
          rt'.label v = some (str.units, atom_type)) := by
  have hfail : ∀ rt₁, Counted rt₁ n → rt₁.label = rt.label → ∃ rt',
      (rt₁.js_free_string source).map (fun rt => (rt, 0)) = some (rt', 0) ∧
      Stays (source.others n) rt rt' ∧ Counted rt' (source.others n) := fun rt₁ h₁ hlabel => by
    obtain ⟨rt', hrt', hcounted, hstays⟩ := h₁.js_free_string hs
    exact ⟨rt', by rw [hrt']; rfl, fun i hi => (hstays i hi).trans (congrFun hlabel i), hcounted⟩
  rw [JSRuntime.addAtom]
  cases hgrow : if rt.atom_free_index = 0 then rt.grow m.array else some rt with
  | none =>
    obtain ⟨rt', hrt', hstays, hcounted⟩ := hfail rt h rfl
    exact ⟨rt', 0, hrt', hstays, .inl ⟨rfl, hcounted⟩⟩
  | some rt₁ =>
    obtain ⟨h₁, hindex₁, hcontents₁⟩ := h.grow hgrow
    have hlabel₁ : rt₁.label = rt.label := by
      funext i
      rw [JSRuntime.label, hcontents₁]
      rfl
    have htext₁ := (h.text_congr h₁ hs hcontents₁).trans htext
    obtain hnone | ⟨rt₂, hrt₂, h₂, hstays₂, hindex₂⟩ := h₁.makeEntry hs htext₁ hindex₁ m.entry
    · obtain ⟨rt', hrt', hstays, hcounted⟩ := hfail rt₁ h₁ hlabel₁
      simp only [hnone]
      exact ⟨rt', 0, hrt', hstays, .inl ⟨rfl, hcounted⟩⟩
    · have hnew₂ : atom_type ≠ .SYMBOL → ∀ i p, rt₂.get i = some p → p.atom_type = atom_type →
          p.str.units ≠ str.units := by
        intro htype i p hp htype' hunits
        have hi : i ≠ 0 := by
          rintro rfl
          exact htype (htype'.symm.trans (h₂.table.zero hp))
        have hlabel := label_of_get hi hp
        have hold := hstays₂ i (h₂.ne_zero_of_label hlabel)
        rw [hlabel, hlabel₁, hunits, htype'] at hold
        exact hnew htype i hold.symm
      obtain ⟨rt', hrt', htable, -, hlt, hnone, hcontents⟩ := h₂.table.useEntry hindex₂ str
        source.gain m.hash hprivate hhash hnew₂
      generalize hv : rt₂.atom_free_index = v at hrt' hlt hnone hcontents hindex₂
      simp only [hrt₂]
      have hzero : source.others n v = 0 := by
        by_contra hne
        obtain ⟨hv0, p, hp, -⟩ := h₂.exists_get hne
        rw [JSRuntime.contents, if_neg hv0, hp] at hnone
        cases hnone
      have hlabel : ∀ i, rt'.label i = Function.update rt₂.label v (some (str.units, atom_type)) i :=
        fun i => by
          rw [JSRuntime.label, hcontents, Function.update_apply, Function.update_apply]
          split_ifs <;> rfl
      refine ⟨rt', v, hrt', fun i hi => ?_, .inr ⟨hindex₂, hlt, hzero, ?_, ?_⟩⟩
      · have hiv : i ≠ v := fun hiv => hi (hiv ▸ hzero)
        rw [hlabel, Function.update_of_ne hiv, hstays₂ i hi, hlabel₁]
      · exact h₂.of_contents htable hcontents fun d hd => by
          rw [← Option.some.inj hd]
          exact Source.gain_ne_zero hs
      · rw [hlabel, Function.update_self]

/-- An atom that is found. -/
theorem JS_DupAtom (JS_ATOM_END : ℕ) {i : ℕ} (h : Counted rt n) (hi : n i ≠ 0) :
    ∃ rt', JSRuntime.JS_DupAtom JS_ATOM_END rt i = some rt' ∧
      Counted rt' (Function.update n i (n i + if isConst JS_ATOM_END i then 0 else 1)) ∧
      rt'.label = rt.label := by
  rw [JSRuntime.JS_DupAtom]
  cases isConst JS_ATOM_END i with
  | true =>
    exact ⟨rt, rfl, h.congr fun j => by simp, rfl⟩
  | false =>
    obtain ⟨rt', hrt', hcounted, hlabel⟩ := h.retain hi
    exact ⟨rt', hrt', hcounted, hlabel⟩

/-- How a call ends that has been asked for the atom of a text and a type. -/
def Given (JS_ATOM_END : ℕ) (n : ℕ → ℕ) (rt : JSRuntime) (source : Source) (l : Label)
    (r : Option (JSRuntime × ℕ)) : Prop :=
  ∃ rt' v, r = some (rt', v) ∧ Stays (source.others n) rt rt' ∧
    (v = 0 ∧ Counted rt' (source.others n) ∨
      v ≠ 0 ∧ v < 2 ^ 30 ∧ Counted rt' (source.gained JS_ATOM_END n v) ∧ rt'.label v = some l ∧
        (l.2 = .SYMBOL → source.others n v = 0))

theorem lt_of_get (h : Counted rt n) {i : ℕ} {p : JSAtomStruct} (hp : rt.get i = some p) :
    i < 2 ^ 30 := (h.table.bound i p hp).trans h.table.size

/-- An atom is made. -/
theorem given_addAtom (JS_ATOM_END : ℕ) (h : Counted rt n) (hs : source.Held n)
    (htext : rt.text source = some str) (hprivate : atom_type ≠ .PRIVATE)
    (hhash : atom_type ≠ .SYMBOL → hash = hashOf str atom_type)
    (hnew : atom_type ≠ .SYMBOL → ∀ i, rt.label i ≠ some (str.units, atom_type)) (m : Memory) :
    Given JS_ATOM_END n rt source (str.units, atom_type)
      (rt.addAtom source hash atom_type m) := by
  obtain ⟨rt', v, hrt', hstays, hfail | ⟨hv, hlt, hzero, hcounted, hlabel⟩⟩ :=
    h.addAtom hs htext hprivate hhash hnew m
  · exact ⟨rt', v, hrt', hstays, .inl hfail⟩
  · refine ⟨rt', v, hrt', hstays, .inr ⟨hv, hlt, ?_, hlabel, fun _ => hzero⟩⟩
    rwa [Source.gained, if_pos hzero]

/-- An atom is found, and the reference to the string is given up. -/
theorem given_found (JS_ATOM_END : ℕ) (h : Counted rt n) (hs : source.Held n) {i : ℕ} {l : Label}
    (hi : rt.label i = some l) (htype : l.2 ≠ .SYMBOL) (hne : source ≠ .entry i) :
    Given JS_ATOM_END n rt source l
      ((JSRuntime.JS_DupAtom JS_ATOM_END rt i).bind fun rt =>
        (rt.js_free_string source).map fun rt => (rt, i)) := by
  have hn := h.ne_zero_of_label hi
  obtain ⟨hi0, p, hp, -⟩ := h.exists_get hn
  obtain ⟨rt₁, hrt₁, h₁, hlabel₁⟩ := h.JS_DupAtom JS_ATOM_END hn
  generalize hg : (if isConst JS_ATOM_END i then 0 else 1) = g at h₁
  have hs₁ : source.Held (Function.update n i (n i + g)) := by
    cases source with
    | string _ _ => exact hs
    | null => trivial
    | entry j =>
      have hji : j ≠ i := fun hji => hne (hji ▸ rfl)
      rwa [Source.Held, Function.update_of_ne hji]
  have hothers : source.others (Function.update n i (n i + g)) =
      Function.update (source.others n) i (n i + g) ∧ source.others n i = n i := by
    cases source with
    | string _ _ => exact ⟨rfl, rfl⟩
    | null => exact ⟨rfl, rfl⟩
    | entry j =>
      have hji : j ≠ i := fun hji => hne (hji ▸ rfl)
      rw [Source.others, Source.others, Function.update_of_ne hji, Function.update_comm hji,
        Function.update_of_ne hji.symm]
      exact ⟨rfl, rfl⟩
  obtain ⟨rt₂, hrt₂, h₂, hstays₂⟩ := h₁.js_free_string hs₁
  rw [hothers.1] at h₂ hstays₂
  have hstays : ∀ j, Function.update (source.others n) i (n i + g) j ≠ 0 →
      rt₂.label j = rt.label j := fun j hj => (hstays₂ j hj).trans (congrFun hlabel₁ j)
  refine ⟨rt₂, i, by rw [hrt₁, Option.bind_some, hrt₂]; rfl, fun j hj => hstays j ?_,
    .inr ⟨hi0, h.lt_of_get hp, ?_, ?_, fun h => absurd h htype⟩⟩
  · rw [Function.update_apply]
    split_ifs
    · omega
    · exact hj
  · rw [Source.gained, hothers.2, if_neg hn]
    rwa [← hg] at h₂
  · rw [hstays i (by rw [Function.update_self]; omega), hi]

/-- The string is the atom. -/
theorem given_self {JS_ATOM_END i : ℕ} (h : Counted rt n) (hs : n i ≠ 0)
    (hconst : isConst JS_ATOM_END i → 1 < n i) {l : Label} (hi : rt.label i = some l)
    (htype : l.2 ≠ .SYMBOL) :
    Given JS_ATOM_END n rt (.entry i) l ((rt.js_get_atom_index i).bind fun i =>
      if isConst JS_ATOM_END i then (rt.decrement i).map fun rt => (rt, i) else some (rt, i)) := by
  obtain ⟨hi0, p, hp, -⟩ := h.exists_get hs
  rw [h.table.js_get_atom_index hp, Option.bind_some]
  split_ifs with hc
  · obtain ⟨rt', hrt', hcounted, hlabel⟩ := h.decrement (hconst hc)
    refine ⟨rt', i, by rw [hrt']; rfl, fun j _ => congrFun hlabel j,
      .inr ⟨hi0, h.lt_of_get hp, hcounted.congr fun j => ?_, by rw [hlabel, hi],
        fun h => absurd h htype⟩⟩
    have := hconst hc
    rw [Source.gained, Source.others, Function.update_self, if_neg (by omega), if_pos hc,
      Function.update_idem, Nat.add_zero]
  · refine ⟨rt, i, rfl, fun j _ => rfl, .inr ⟨hi0, h.lt_of_get hp, h.congr fun j => ?_, hi,
      fun h => absurd h htype⟩⟩
    rw [Source.gained, Source.others, Function.update_self, if_neg hc, Function.update_idem,
      Function.update_apply]
    split_ifs with hj h1
    · subst hj
      show 1 = n j
      omega
    · subst hj
      omega
    · rfl

/-- **A new atom** has the text and the type asked for. -/
theorem newAtom {JS_ATOM_END : ℕ} (h : Counted rt n) (hs : source.Held n)
    (hconst : ∀ i, source = .entry i → isConst JS_ATOM_END i → 1 < n i)
    (htext : rt.text source = some str) (atom_type : AtomType) (m : Memory) :
    Given JS_ATOM_END n rt source (str.units, atom_type.stored)
      (JSRuntime.newAtom JS_ATOM_END rt source atom_type m) := by
  -- the search of the chain
  have hfind : atom_type ≠ .SYMBOL → atom_type ≠ .PRIVATE →
      (∀ i, source = .entry i → (rt.get i).map JSAtomStruct.atom_type ≠ some atom_type) →
      Given JS_ATOM_END n rt source (str.units, atom_type)
        (JSRuntime.findOrAdd JS_ATOM_END rt source str atom_type m) := by
    intro hsymbol hprivate hne
    obtain ⟨r, hr, hfound, hnone⟩ := h.table.find str atom_type hsymbol
    simp only [JSRuntime.findOrAdd, hr]
    cases r with
    | zero =>
      refine h.given_addAtom JS_ATOM_END hs htext hprivate (fun _ => rfl) (fun _ i hi => ?_) m
      obtain ⟨-, p, hp, hunits, htype⟩ := get_of_label hi
      exact hnone rfl i p hp htype hunits
    | succ r =>
      obtain ⟨p, hp, htype, hunits⟩ := hfound (Nat.succ_ne_zero r)
      have hlabel := label_of_get (Nat.succ_ne_zero r) hp
      rw [hunits, htype] at hlabel
      refine h.given_found JS_ATOM_END hs hlabel hsymbol fun hentry => hne _ hentry ?_
      rw [hp]
      exact congrArg some htype
  -- the string may be the atom itself
  have hhashed : atom_type ≠ .SYMBOL → atom_type ≠ .PRIVATE →
      Given JS_ATOM_END n rt source (str.units, atom_type)
        (JSRuntime.newAtom JS_ATOM_END rt source atom_type m) := by
    intro hsymbol hprivate
    cases source with
    | string str' k =>
      have := hfind hsymbol hprivate fun i hi => by cases hi
      rw [JSRuntime.newAtom, htext]
      cases atom_type <;> first | exact this | contradiction
    | null =>
      have := hfind hsymbol hprivate fun i hi => by cases hi
      rw [JSRuntime.newAtom, htext]
      cases atom_type <;> first | exact this | contradiction
    | entry i =>
      by_cases htype : (rt.get i).map JSAtomStruct.atom_type = some atom_type
      · obtain ⟨hi0, p, hp, -⟩ := h.exists_get hs
        have hstr : p.str = str := by
          rw [JSRuntime.text, hp] at htext
          exact Option.some.inj htext
        have htype' : p.atom_type = atom_type := by
          rw [hp] at htype
          exact Option.some.inj htype
        have hlabel := label_of_get hi0 hp
        rw [hstr, htype'] at hlabel
        have := h.given_self hs (hconst i rfl) hlabel hsymbol
        rw [JSRuntime.newAtom, htext]
        cases atom_type with
        | STRING => simp only [if_pos htype]; exact this
        | GLOBAL_SYMBOL => simp only [if_pos htype]; exact this
        | SYMBOL => exact absurd rfl hsymbol
        | PRIVATE => exact absurd rfl hprivate
      · have := hfind hsymbol hprivate fun j hj => by
          cases hj
          exact htype
        rw [JSRuntime.newAtom, htext]
        cases atom_type with
        | STRING => simp only [if_neg htype]; exact this
        | GLOBAL_SYMBOL => simp only [if_neg htype]; exact this
        | SYMBOL => exact absurd rfl hsymbol
        | PRIVATE => exact absurd rfl hprivate
  cases atom_type with
  | STRING => exact hhashed (by decide) (by decide)
  | GLOBAL_SYMBOL => exact hhashed (by decide) (by decide)
  | SYMBOL =>
    rw [JSRuntime.newAtom, htext]
    exact h.given_addAtom JS_ATOM_END hs htext (by decide) (fun h => absurd rfl h)
      (fun h => absurd rfl h) m
  | PRIVATE =>
    rw [JSRuntime.newAtom, htext]
    exact h.given_addAtom JS_ATOM_END hs htext (by decide) (fun h => absurd rfl h)
      (fun h => absurd rfl h) m

end Counted

end JSEngine.Atoms
