import Mathlib.Data.Set.Insert
import Mathlib.Data.List.Nodup
import Mathlib.Data.Finset.Card
import Mathlib.Tactic

/-!
# Chained hash tables

The entries of a table are numbered from 1 on. Each has a link to another entry, and each bucket
a first entry; 0 ends a chain.

* `Holds.seek`: walking the chain of a bucket finds an entry with a property if there is one;
* `Holds.push`, `Holds.remove`: a new entry at the front of its bucket, and an entry taken out
  of its chain;
* `holds_relink`: the entries of a table can be linked anew one after the other.
-/

namespace JSEngine.Common.Chains

variable {next next' : ℕ → Option ℕ} {i j x : ℕ} {l l' : List ℕ}

/-! ## Chains -/

/-- The links lead from `i` through the entries of the list to the end. -/
inductive Chain (next : ℕ → Option ℕ) : ℕ → List ℕ → Prop
  | nil : Chain next 0 []
  | cons {i j : ℕ} {l : List ℕ} (hi : i ≠ 0) (hnext : next i = some j) (h : Chain next j l) :
    Chain next i (i :: l)

namespace Chain

theorem eq_nil (h : Chain next 0 l) : l = [] := by
  cases h with
  | nil => rfl
  | cons hi _ _ => exact absurd rfl hi

theorem eq_zero (h : Chain next i []) : i = 0 := by
  cases h with
  | nil => rfl

/-- The first entry of a chain and the rest. -/
theorem inv (h : Chain next i (x :: l)) :
    i = x ∧ x ≠ 0 ∧ ∃ j, next x = some j ∧ Chain next j l := by
  cases h with
  | cons hi hnext h => exact ⟨rfl, hi, _, hnext, h⟩

/-- The links decide the chain. -/
theorem unique (h : Chain next i l) (h' : Chain next i l') : l = l' := by
  induction h generalizing l' with
  | nil => exact h'.eq_nil.symm
  | cons hi hnext _ ih =>
    cases h' with
    | nil => exact absurd rfl hi
    | cons _ hnext' hl' =>
      obtain rfl := Option.some.inj (hnext.symm.trans hnext')
      rw [ih hl']

theorem ne_zero (h : Chain next i l) (hx : x ∈ l) : x ≠ 0 := by
  induction h with
  | nil => cases hx
  | cons hi _ _ ih =>
    obtain rfl | hx := List.mem_cons.mp hx
    · exact hi
    · exact ih hx

theorem congr (h : Chain next i l) (hl : ∀ y ∈ l, next' y = next y) : Chain next' i l := by
  induction h with
  | nil => exact .nil
  | cons hi hnext _ ih =>
    obtain ⟨hfirst, hrest⟩ := List.forall_mem_cons.mp hl
    exact .cons hi (hfirst.trans hnext) (ih hrest)

/-- An entry starts the rest of its chain. -/
theorem drop {r : List ℕ} (h : Chain next i (l ++ x :: r)) : Chain next x (x :: r) := by
  induction l generalizing i with
  | nil =>
    cases h with
    | cons hi hnext hr => exact .cons hi hnext hr
  | cons y l ih =>
    cases h with
    | cons _ _ hr => exact ih hr

/-- No chain comes back to an entry: it would be its own rest. -/
theorem nodup (h : Chain next i l) : l.Nodup := by
  induction h with
  | nil => exact List.nodup_nil
  | cons hi hnext h ih =>
    refine List.nodup_cons.mpr ⟨fun hmem => ?_, ih⟩
    obtain ⟨l₁, l₂, rfl⟩ := List.append_of_mem hmem
    have hrest := (Chain.cons hi hnext h).unique h.drop
    have hlength := congrArg List.length hrest
    simp only [List.length_cons, List.length_append] at hlength
    omega

/-- The links behind a new first entry stay. -/
theorem push (h : Chain next i l) (hx : x ≠ 0) (hnew : x ∉ l) :
    Chain (Function.update next x (some i)) x (x :: l) := by
  refine .cons hx (Function.update_self ..) (h.congr fun y hy => ?_)
  refine Function.update_of_ne ?_ _ _
  rintro rfl
  exact hnew hy

/-- A link past an entry. -/
theorem unlink {p n : ℕ} {r : List ℕ} (h : Chain next i (l ++ p :: x :: r))
    (hx : next x = some n) : Chain (Function.update next p (some n)) i (l ++ p :: r) := by
  have hnodup := h.nodup
  induction l generalizing i with
  | nil =>
    cases h with
    | cons hp _ hrest =>
      cases hrest with
      | cons _ hnext hr =>
        obtain rfl := Option.some.inj (hx.symm.trans hnext)
        refine .cons hp (Function.update_self ..) (hr.congr fun y hy => ?_)
        refine Function.update_of_ne (fun hyp => ?_) _ _
        exact (List.nodup_cons.mp hnodup).1 (List.mem_cons_of_mem _ (hyp ▸ hy))
  | cons y l ih =>
    cases h with
    | cons hy hnext hrest =>
      obtain ⟨hnew, hnodup⟩ := List.nodup_cons.mp hnodup
      have hne : y ≠ p := fun hyp => hnew (by simp [hyp])
      exact .cons hy ((Function.update_of_ne hne _ _).trans hnext) (ih hrest hnodup)

theorem length_le (h : Chain next i l) {n : ℕ} (hl : ∀ y ∈ l, y < n) : l.length ≤ n := by
  have hsub : l.toFinset ⊆ Finset.range n := fun y hy =>
    Finset.mem_range.mpr (hl y (List.mem_toFinset.mp hy))
  have hcard := Finset.card_le_card hsub
  rwa [List.toFinset_card_of_nodup h.nodup, Finset.card_range] at hcard

end Chain

/-- Consecutive entries, each linked to the next. -/
theorem chain_range' {start n : ℕ} (hstart : start ≠ 0)
    (hnext : ∀ i, start ≤ i → i < start + n →
      next i = some (if i = start + n - 1 then 0 else i + 1)) :
    Chain next (if n = 0 then 0 else start) (List.range' start n) := by
  induction n generalizing start with
  | zero => exact .nil
  | succ n ih =>
    have hrest := ih (Nat.succ_ne_zero start) fun i hi hlt => by
      rw [hnext i (by omega) (by omega)]
      exact congrArg (fun m => some (if i = m then 0 else i + 1)) (by omega)
    refine .cons hstart (hnext start le_rfl (by omega)) ?_
    cases n with
    | zero => simpa using hrest
    | succ n => simpa using hrest

/-! ## Walking a chain -/

/-- The first entry with a property from `i` on, within `n` steps. The result is `none` where a
    link is missing. -/
def seek (next : ℕ → Option ℕ) (p : ℕ → Bool) : ℕ → ℕ → Option ℕ
  | _, 0 => some 0
  | 0, _ + 1 => none
  | n + 1, i + 1 =>
    if p (i + 1) then some (i + 1) else (next (i + 1)).bind fun j => seek next p n j

theorem seek_zero (n : ℕ) (p : ℕ → Bool) : seek next p n 0 = some 0 := by
  cases n <;> rfl

theorem seek_succ {n : ℕ} (p : ℕ → Bool) (hi : i ≠ 0) (hnext : next i = some j) :
    seek next p (n + 1) i = if p i then some i else seek next p n j := by
  obtain ⟨i, rfl⟩ := Nat.exists_eq_succ_of_ne_zero hi
  rw [seek, hnext]
  rfl

/-- Walking a chain is searching its list; 0 is found where nothing is. -/
theorem Chain.seek (h : Chain next i l) (p : ℕ → Bool) {n : ℕ} (hn : l.length ≤ n) :
    seek next p n i = some ((l.find? p).getD 0) := by
  induction h generalizing n with
  | nil => exact seek_zero n p
  | @cons i j l hi hnext h ih =>
    obtain ⟨n, rfl⟩ := Nat.exists_eq_add_of_le' (Nat.one_le_of_lt (Nat.lt_of_lt_of_le
      (Nat.succ_pos l.length) hn))
    rw [seek_succ p hi hnext]
    cases hp : p i with
    | true => simp [hp]
    | false =>
      rw [List.find?_cons_of_neg (by simp [hp])]
      exact ih (Nat.le_of_succ_le_succ hn)

/-! ## Tables -/

/-- The links of the entries, and the first entry of each bucket. -/
@[ext] structure Links where
  next : ℕ → Option ℕ
  head : ℕ → ℕ

/-- A new entry at the front of a bucket. -/
def Links.push (t : Links) (b x : ℕ) : Links where
  next := Function.update t.next x (some (t.head b))
  head := Function.update t.head b x

/-- The first entry of a bucket is taken out; `n` follows it. -/
def Links.behead (t : Links) (b n : ℕ) : Links := { t with head := Function.update t.head b n }

/-- The entry behind `p` is taken out; `n` follows it. -/
def Links.unlink (t : Links) (p n : ℕ) : Links :=
  { t with next := Function.update t.next p (some n) }

/-- The chains of the buckets below `size` have the entries of the set, each in its bucket. -/
structure Links.Holds (t : Links) (size : ℕ) (bucket : ℕ → ℕ) (s : Set ℕ) : Prop where
  bucket_lt : ∀ y ∈ s, bucket y < size
  chain : ∀ b < size, ∃ l, Chain t.next (t.head b) l ∧ ∀ y, y ∈ l ↔ y ∈ s ∧ bucket y = b

theorem holds_empty (next : ℕ → Option ℕ) (size : ℕ) (bucket : ℕ → ℕ) :
    Links.Holds ⟨next, fun _ => 0⟩ size bucket ∅ where
  bucket_lt _ hy := absurd hy (Set.notMem_empty _)
  chain _ _ := ⟨[], .nil, by simp⟩

namespace Links.Holds

variable {t t' : Links} {size : ℕ} {bucket bucket' : ℕ → ℕ} {s : Set ℕ} {b : ℕ}

theorem ne_zero (h : t.Holds size bucket s) (hx : x ∈ s) : x ≠ 0 := by
  obtain ⟨l, hl, hmem⟩ := h.chain _ (h.bucket_lt x hx)
  exact hl.ne_zero ((hmem x).mpr ⟨hx, rfl⟩)

theorem exists_next (h : t.Holds size bucket s) (hx : x ∈ s) : ∃ n, t.next x = some n := by
  obtain ⟨l, hl, hmem⟩ := h.chain _ (h.bucket_lt x hx)
  obtain ⟨l₁, l₂, rfl⟩ := List.append_of_mem ((hmem x).mpr ⟨hx, rfl⟩)
  obtain ⟨-, -, n, hn, -⟩ := hl.drop.inv
  exact ⟨n, hn⟩

theorem congr (h : t.Holds size bucket s) (hbucket : ∀ y ∈ s, bucket' y = bucket y)
    (hnext : ∀ y ∈ s, t'.next y = t.next y) (hhead : ∀ b < size, t'.head b = t.head b) :
    t'.Holds size bucket' s where
  bucket_lt y hy := hbucket y hy ▸ h.bucket_lt y hy
  chain b hb := by
    obtain ⟨l, hl, hmem⟩ := h.chain b hb
    refine ⟨l, ?_, fun y => ?_⟩
    · rw [hhead b hb]
      exact hl.congr fun y hy => hnext y ((hmem y).mp hy).1
    · rw [hmem y]
      exact and_congr_right fun hy => by rw [hbucket y hy]

/-- **Lookup**: the first entry of a bucket with a property, or 0 where there is none. -/
theorem seek (h : t.Holds size bucket s) (hb : b < size) (p : ℕ → Bool) {n : ℕ}
    (hn : ∀ y ∈ s, y < n) :
    ∃ r, seek t.next p n (t.head b) = some r ∧
      (r ≠ 0 → r ∈ s ∧ bucket r = b ∧ p r = true) ∧
      (r = 0 → ∀ y ∈ s, bucket y = b → p y = false) := by
  obtain ⟨l, hl, hmem⟩ := h.chain b hb
  refine ⟨_, hl.seek p (hl.length_le fun y hy => hn y ((hmem y).mp hy).1), fun hr => ?_,
    fun hr y hy hyb => ?_⟩
  · cases hfind : l.find? p with
    | none =>
      rw [hfind] at hr
      exact absurd rfl hr
    | some y =>
      obtain ⟨hys, hyb⟩ := (hmem y).mp (List.mem_of_find?_eq_some hfind)
      exact ⟨hys, hyb, List.find?_some hfind⟩
  · cases hfind : l.find? p with
    | none => simpa using List.find?_eq_none.mp hfind y ((hmem y).mpr ⟨hy, hyb⟩)
    | some z =>
      rw [hfind] at hr
      exact absurd hr (hl.ne_zero (List.mem_of_find?_eq_some hfind))

/-- **A new entry** at the front of its bucket. -/
theorem push (h : t.Holds size bucket s) (hx : x ≠ 0) (hnew : x ∉ s) (hb : bucket x < size) :
    (t.push (bucket x) x).Holds size bucket (insert x s) where
  bucket_lt y hy := by
    obtain rfl | hy := Set.mem_insert_iff.mp hy
    · exact hb
    · exact h.bucket_lt y hy
  chain b hb' := by
    obtain ⟨l, hl, hmem⟩ := h.chain b hb'
    have hnotin : x ∉ l := fun hxl => hnew ((hmem x).mp hxl).1
    by_cases hxb : b = bucket x
    · subst hxb
      refine ⟨x :: l, ?_, fun y => ?_⟩
      · show Chain _ (Function.update t.head (bucket x) x (bucket x)) _
        rw [Function.update_self]
        exact hl.push hx hnotin
      · rw [List.mem_cons, hmem y, Set.mem_insert_iff]
        constructor
        · rintro (rfl | ⟨hy, hyb⟩)
          · exact ⟨.inl rfl, rfl⟩
          · exact ⟨.inr hy, hyb⟩
        · rintro ⟨rfl | hy, hyb⟩
          · exact .inl rfl
          · exact .inr ⟨hy, hyb⟩
    · refine ⟨l, ?_, fun y => ?_⟩
      · show Chain _ (Function.update t.head (bucket x) x b) _
        rw [Function.update_of_ne hxb]
        refine hl.congr fun y hy => Function.update_of_ne ?_ _ _
        rintro rfl
        exact hnotin hy
      · rw [hmem y, Set.mem_insert_iff]
        constructor
        · exact fun ⟨hy, hyb⟩ => ⟨.inr hy, hyb⟩
        · rintro ⟨rfl | hy, hyb⟩
          · exact absurd hyb.symm hxb
          · exact ⟨hy, hyb⟩

/-- An entry that is not the first of its bucket has one before it. -/
theorem exists_before (h : t.Holds size bucket s) (hx : x ∈ s) (hhead : t.head (bucket x) ≠ x) :
    ∃ y ∈ s, bucket y = bucket x ∧ t.next y = some x := by
  obtain ⟨l, hl, hmem⟩ := h.chain _ (h.bucket_lt x hx)
  obtain ⟨l₁, l₂, rfl⟩ := List.append_of_mem ((hmem x).mpr ⟨hx, rfl⟩)
  obtain rfl | ⟨l₁, y, rfl⟩ := List.eq_nil_or_concat l₁
  · exact absurd hl.inv.1 hhead
  · have hrest : Chain t.next y (y :: x :: l₂) := by
      have hl : Chain t.next (t.head (bucket x)) (l₁ ++ y :: x :: l₂) := by simpa using hl
      exact hl.drop
    obtain ⟨hy, hyb⟩ := (hmem y).mp (by simp)
    obtain ⟨-, -, j, hnext, hrest⟩ := hrest.inv
    obtain ⟨rfl, -⟩ := hrest.inv
    exact ⟨y, hy, hyb, hnext⟩

/-- The chains after an entry is gone from its own. -/
theorem remove_of_chain (h : t.Holds size bucket s) (hx : x ∈ s)
    (hhead : ∀ b < size, b ≠ bucket x → t'.head b = t.head b)
    (hnext : ∀ y ∈ s, bucket y ≠ bucket x → t'.next y = t.next y)
    (hchain : ∀ l₁ l₂, Chain t.next (t.head (bucket x)) (l₁ ++ x :: l₂) →
      (∀ y, y ∈ l₁ ++ x :: l₂ ↔ y ∈ s ∧ bucket y = bucket x) →
      Chain t'.next (t'.head (bucket x)) (l₁ ++ l₂)) :
    t'.Holds size bucket (s \ {x}) where
  bucket_lt y hy := h.bucket_lt y hy.1
  chain b hb := by
    obtain ⟨l, hl, hmem⟩ := h.chain b hb
    by_cases hxb : b = bucket x
    · subst hxb
      obtain ⟨l₁, l₂, rfl⟩ := List.append_of_mem ((hmem x).mpr ⟨hx, rfl⟩)
      refine ⟨l₁ ++ l₂, hchain l₁ l₂ hl hmem, fun y => ?_⟩
      have hnodup := List.nodup_middle.mp hl.nodup
      have hout : x ∉ l₁ ++ l₂ := (List.nodup_cons.mp hnodup).1
      have hmem' := hmem y
      rw [List.mem_append, List.mem_cons] at hmem'
      rw [Set.mem_sdiff, Set.mem_singleton_iff, and_right_comm, ← hmem', List.mem_append]
      constructor
      · intro hy
        have hne : y ≠ x := fun hyx => hout (List.mem_append.mpr (hyx ▸ hy))
        exact ⟨hy.imp_right .inr, hne⟩
      · rintro ⟨hy | rfl | hy, hne⟩
        · exact .inl hy
        · exact absurd rfl hne
        · exact .inr hy
    · refine ⟨l, ?_, fun y => ?_⟩
      · rw [hhead b hb hxb]
        refine hl.congr fun y hy => ?_
        obtain ⟨hys, hyb⟩ := (hmem y).mp hy
        exact hnext y hys (hyb ▸ hxb)
      · rw [hmem y, Set.mem_sdiff, Set.mem_singleton_iff, and_right_comm]
        refine (and_iff_left_of_imp ?_).symm
        rintro ⟨_, hyb⟩ rfl
        exact hxb hyb.symm

/-- **The first entry of a bucket** is taken out. -/
theorem behead (h : t.Holds size bucket s) (hx : x ∈ s) (hhead : t.head (bucket x) = x) {n : ℕ}
    (hn : t.next x = some n) : (t.behead (bucket x) n).Holds size bucket (s \ {x}) := by
  refine h.remove_of_chain hx (fun b _ hb => Function.update_of_ne hb _ _) (fun _ _ _ => rfl)
    fun l₁ l₂ hl _ => ?_
  show Chain t.next (Function.update t.head (bucket x) n (bucket x)) _
  rw [Function.update_self]
  cases l₁ with
  | nil =>
    obtain ⟨-, -, j, hnext, hrest⟩ := hl.inv
    obtain rfl := Option.some.inj (hn.symm.trans hnext)
    exact hrest
  | cons y l₁ =>
    obtain rfl : x = y := hhead.symm.trans hl.inv.1
    exact absurd (by simp) (List.nodup_cons.mp hl.nodup).1

/-- **Any other entry** is taken out behind the one before it. -/
theorem unlink (h : t.Holds size bucket s) (hx : x ∈ s) {p n : ℕ} (hp : p ∈ s)
    (hpb : bucket p = bucket x) (hpx : t.next p = some x) (hn : t.next x = some n) :
    (t.unlink p n).Holds size bucket (s \ {x}) := by
  refine h.remove_of_chain hx (fun _ _ _ => rfl) (fun y _ hy => ?_) fun l₁ l₂ hl hmem => ?_
  · refine Function.update_of_ne ?_ _ _
    rintro rfl
    exact hy hpb
  · have hpl := (hmem p).mpr ⟨hp, hpb⟩
    obtain ⟨m₁, m₂, hsplit⟩ := List.append_of_mem hpl
    rw [hsplit] at hl
    obtain ⟨-, -, j, hpj, hrest⟩ := hl.drop.inv
    obtain rfl := Option.some.inj (hpx.symm.trans hpj)
    -- the rest behind `p` starts with `x`, so the two splits of the chain are the same
    obtain ⟨m₃, rfl⟩ : ∃ m₃, m₂ = x :: m₃ := by
      cases m₂ with
      | nil => exact absurd hrest.eq_zero (h.ne_zero hx)
      | cons z m₃ => exact ⟨m₃, by rw [hrest.inv.1]⟩
    have hunlinked := hl.unlink hn
    have hsame : l₁ ++ l₂ = m₁ ++ p :: m₃ := by
      have hnodup := hl.nodup
      have herase := congrArg (List.erase · x) hsplit
      have hout : x ∉ m₁ ++ [p] := by
        intro hmem
        have hnodup' : (m₁ ++ [p] ++ x :: m₃).Nodup := by simpa using hnodup
        exact (List.nodup_cons.mp (List.nodup_middle.mp hnodup')).1
          (List.mem_append_left _ hmem)
      have hout' : x ∉ l₁ := by
        rw [← hsplit] at hnodup
        intro hmem
        exact (List.nodup_cons.mp (List.nodup_middle.mp hnodup)).1 (List.mem_append_left _ hmem)
      have hright : (m₁ ++ p :: x :: m₃).erase x = m₁ ++ p :: m₃ := by
        have : m₁ ++ p :: x :: m₃ = (m₁ ++ [p]) ++ x :: m₃ := by simp
        rw [this, List.erase_append_right _ hout, List.erase_cons_head]
        simp
      have hleft : (l₁ ++ x :: l₂).erase x = l₁ ++ l₂ := by
        rw [List.erase_append_right _ hout', List.erase_cons_head]
      rw [← hleft, ← hright]
      exact herase
    rw [hsame]
    exact hunlinked

end Links.Holds

/-! ## Linking anew -/

/-- Entries are linked one after the other. -/
def Links.pushAll (bucket : ℕ → ℕ) (t : Links) (xs : List ℕ) : Links :=
  xs.foldl (fun t x => t.push (bucket x) x) t

theorem Links.Holds.pushAll {t : Links} {size : ℕ} {bucket : ℕ → ℕ} {s : Set ℕ} {xs : List ℕ}
    (h : t.Holds size bucket s) (hnodup : xs.Nodup)
    (hxs : ∀ x ∈ xs, x ≠ 0 ∧ x ∉ s ∧ bucket x < size) :
    (t.pushAll bucket xs).Holds size bucket (s ∪ {x | x ∈ xs}) := by
  induction xs generalizing t s with
  | nil => simpa [Links.pushAll] using h
  | cons x xs ih =>
    obtain ⟨⟨hx, hnew, hb⟩, hrest⟩ := List.forall_mem_cons.mp hxs
    obtain ⟨hout, hnodup⟩ := List.nodup_cons.mp hnodup
    have hpush := ih (h.push hx hnew hb) hnodup fun y hy => by
      obtain ⟨hy0, hys, hyb⟩ := hrest y hy
      refine ⟨hy0, fun hmem => ?_, hyb⟩
      obtain rfl | hmem := Set.mem_insert_iff.mp hmem
      · exact hout hy
      · exact hys hmem
    have hset : insert x s ∪ {y | y ∈ xs} = s ∪ {y | y ∈ x :: xs} := by
      ext y
      simp only [Set.mem_union, Set.mem_insert_iff, Set.mem_ofPred_eq, List.mem_cons]
      tauto
    rwa [hset] at hpush

theorem pushAll_next {bucket : ℕ → ℕ} {t : Links} {xs : List ℕ} (hx : x ∉ xs) :
    (t.pushAll bucket xs).next x = t.next x := by
  induction xs generalizing t with
  | nil => rfl
  | cons y xs ih =>
    obtain ⟨hne, hx⟩ := not_or.mp (mt List.mem_cons.mpr hx)
    exact (ih hx).trans (Function.update_of_ne hne _ _)

/-- The entries of a chain are linked anew, each after its own link has been read. -/
def relink (bucket : ℕ → ℕ) : ℕ → ℕ → Links → Option Links
  | _, 0, t => some t
  | 0, _ + 1, _ => none
  | n + 1, i + 1, t =>
    (t.next (i + 1)).bind fun j => relink bucket n j (t.push (bucket (i + 1)) (i + 1))

theorem relink_next_eq_none {bucket : ℕ → ℕ} {n : ℕ} {t t' : Links}
    (h : relink bucket n i t = some t') (x : ℕ) : t'.next x = none ↔ t.next x = none := by
  induction n generalizing i t with
  | zero =>
    cases i with
    | zero => cases h; exact Iff.rfl
    | succ i => cases h
  | succ n ih =>
    cases i with
    | zero => cases h; exact Iff.rfl
    | succ i =>
      obtain ⟨j, hj, h⟩ := Option.bind_eq_some_iff.mp h
      rw [ih h]
      by_cases hx : x = i + 1
      · subst hx
        simp [Links.push, hj]
      · simp [Links.push, Function.update_of_ne hx]

theorem Chain.relink {t : Links} (h : Chain t.next i l) (bucket : ℕ → ℕ) {n : ℕ}
    (hn : l.length ≤ n) : relink bucket n i t = some (t.pushAll bucket l) := by
  induction l generalizing i n t with
  | nil =>
    cases h with
    | nil => cases n <;> rfl
  | cons y l ih =>
    have hnodup := List.nodup_cons.mp h.nodup
    cases h with
    | @cons _ j _ hi hnext h =>
      obtain ⟨n, rfl⟩ := Nat.exists_eq_add_of_le' (Nat.one_le_of_lt (Nat.lt_of_lt_of_le
        (Nat.succ_pos l.length) hn))
      obtain ⟨i, rfl⟩ := Nat.exists_eq_succ_of_ne_zero hi
      have hrest : Chain (t.push (bucket (i + 1)) (i + 1)).next j l :=
        h.congr fun y hy => Function.update_of_ne (by rintro rfl; exact hnodup.1 hy) _ _
      rw [Chains.relink, hnext]
      exact ih hrest (Nat.le_of_succ_le_succ hn)

/-- **All entries of a table are linked anew**, bucket by bucket. -/
theorem holds_relink {t : Links} {size size' n : ℕ} {bucket bucket' : ℕ → ℕ} {s : Set ℕ}
    (h : t.Holds size bucket s) (hbucket' : ∀ y ∈ s, bucket' y < size')
    (hn : ∀ y ∈ s, y < n) :
    ∃ t', (List.range size).foldlM (fun t' b => relink bucket' n (t.head b) t')
        ⟨t.next, fun _ => 0⟩ = some t' ∧
      t'.Holds size' bucket' s ∧ ∀ y ∉ s, t'.next y = t.next y := by
  suffices hk : ∀ k ≤ size, ∃ t', (List.range k).foldlM
      (fun t' b => relink bucket' n (t.head b) t') ⟨t.next, fun _ => 0⟩ = some t' ∧
      t'.Holds size' bucket' {y ∈ s | bucket y < k} ∧
      ∀ y, y ∉ s ∨ k ≤ bucket y → t'.next y = t.next y by
    obtain ⟨t', hfold, hholds, hnext⟩ := hk size le_rfl
    have hset : {y ∈ s | bucket y < size} = s :=
      Set.sep_eq_self_iff_mem_true.mpr fun y hy => h.bucket_lt y hy
    rw [hset] at hholds
    exact ⟨t', hfold, hholds, fun y hy => hnext y (.inl hy)⟩
  intro k hk
  induction k with
  | zero =>
    refine ⟨_, rfl, ?_, fun _ _ => rfl⟩
    have hset : {y ∈ s | bucket y < 0} = ∅ := by simp
    rw [hset]
    exact holds_empty t.next size' bucket'
  | succ k ih =>
    obtain ⟨t', hfold, hholds, hnext⟩ := ih (Nat.le_of_succ_le hk)
    obtain ⟨l, hl, hmem⟩ := h.chain k hk
    -- the chain of bucket `k` has not been touched
    have hl' : Chain t'.next (t.head k) l :=
      hl.congr fun y hy => hnext y (.inr ((hmem y).mp hy).2.ge)
    have hlength : l.length ≤ n := hl.length_le fun y hy => hn y ((hmem y).mp hy).1
    refine ⟨t'.pushAll bucket' l, ?_, ?_, fun y hy => ?_⟩
    · rw [List.range_succ, List.foldlM_append, hfold]
      simp [hl'.relink bucket' hlength]
    · have hpushed := hholds.pushAll hl.nodup fun y hy => by
        obtain ⟨hys, hyb⟩ := (hmem y).mp hy
        exact ⟨hl.ne_zero hy, fun hmem => absurd hmem.2 (hyb ▸ lt_irrefl k), hbucket' y hys⟩
      have hset : {y ∈ s | bucket y < k} ∪ {y | y ∈ l} = {y ∈ s | bucket y < k + 1} := by
        ext y
        simp only [Set.mem_union, Set.mem_ofPred_eq, hmem y, Nat.lt_succ_iff_lt_or_eq]
        tauto
      rwa [hset] at hpushed
    · have hout : y ∉ l := fun hyl => by
        obtain ⟨hys, hyb⟩ := (hmem y).mp hyl
        obtain hy | hy := hy
        · exact hy hys
        · omega
      rw [pushAll_next hout]
      exact hnext y (hy.imp_right Nat.le_of_succ_le)

end JSEngine.Common.Chains
