import JSEngine.Collector.Releasing

/-!
# Taking all references away, and giving them back

`gc_decref` takes the references between objects away from their counts. What is left is what the
program has. `gc_scan` goes through the objects with counts, gives the references of each back, and
goes on to the objects that get a count so.

* `gc_decref_spec`: the counts are those of the program, and the objects without are set aside;
* `gc_scan_spec`: the counts are those of before, and what is set aside cannot be reached.
-/

namespace JSEngine.Collector

open JSEngine.Common.References

variable {α : Type*} [DecidableEq α]

theorem next_append {pre post : List α} {x : α} (hx : x ∉ pre) :
    next (pre ++ x :: post) x = post.head? := by
  induction pre with
  | nil => exact if_pos rfl
  | cons a pre ih =>
    obtain ⟨hne, hx⟩ := not_or.mp (List.mem_cons.not.mp hx)
    rw [List.cons_append, next, if_neg (Ne.symm hne), ih hx]

omit [DecidableEq α] in
theorem nodup_append_singleton {l : List α} {x : α} (h : l.Nodup) (hx : x ∉ l) :
    (l ++ [x]).Nodup := by
  rw [← List.concat_eq_append]
  exact h.concat hx

/-- What the collector does not touch before it frees. -/
structure SameHeap (rt rt' : JSRuntime α) : Prop where
  obj : rt'.obj = rt.obj
  zero : rt'.gc_zero_ref_count_list = rt.gc_zero_ref_count_list
  freed : rt'.freed = rt.freed
  phase : rt'.gc_phase = rt.gc_phase

omit [DecidableEq α] in
theorem SameHeap.children {rt rt' : JSRuntime α} (h : SameHeap rt rt') :
    rt'.children = rt.children := by
  funext x
  exact congrArg JSGCObject.mark_children (congrFun h.obj x)

/-! ## Taking references away -/

/-- The objects `seen` have let go of their references, but for `owed`; those of `todo` still count.
    The objects from `todo` on and the one in hand are `ahead`. -/
structure Decref (ext : α → ℕ) (rt₀ rt : JSRuntime α) (seen ahead todo owed : List α) : Prop where
  same : SameHeap rt₀ rt
  zero : rt₀.gc_zero_ref_count_list = []
  nodup : (seen ++ ahead).Nodup
  count : ∀ x, rt.ref_count x = ext x + refsFrom rt₀.children todo x + owed.count x
  owed : ∀ x ∈ owed, x ∈ seen ++ ahead
  gc : ∃ kept, rt.gc_obj_list = kept ++ ahead ∧ kept.Nodup ∧
    ∀ x, x ∈ kept ↔ x ∈ seen ∧ rt.ref_count x ≠ 0
  tmp : rt.tmp_obj_list.Nodup ∧ ∀ x, x ∈ rt.tmp_obj_list ↔ x ∈ seen ∧ rt.ref_count x = 0
  marked : ∀ x ∈ seen, rt.mark x = true
  unmarked : ∀ x ∈ ahead, rt.mark x = false

section Decref

variable {ext : α → ℕ} {rt₀ rt : JSRuntime α} {seen ahead todo owed : List α} {c p : α}

/-- One reference is taken away. -/
theorem Decref.child (h : Decref ext rt₀ rt seen ahead todo (c :: owed)) :
    ∃ rt', gc_decref_child rt c = some rt' ∧ Decref ext rt₀ rt' seen ahead todo owed := by
  have hpos : rt.ref_count c ≠ 0 := by
    have hcount := h.count c
    rw [List.count_cons_self] at hcount
    omega
  have hcount : ∀ x, (rt.set_ref_count c (rt.ref_count c - 1)).ref_count x =
      ext x + refsFrom rt₀.children todo x + owed.count x := by
    intro x
    have hcount := h.count x
    by_cases hx : x = c
    · subst hx
      rw [List.count_cons_self] at hcount
      rw [ref_count_dec_self]
      omega
    · rw [List.count_cons_of_ne (Ne.symm hx)] at hcount
      rw [ref_count_dec_of_ne hx, hcount]
  have howed : ∀ x ∈ owed, x ∈ seen ++ ahead := fun x hx => h.owed x (List.mem_cons_of_mem c hx)
  obtain ⟨kept, hgc, hkept, hmem⟩ := h.gc
  obtain ⟨htmp, hmemtmp⟩ := h.tmp
  rw [gc_decref_child, if_neg hpos]
  dsimp only
  rw [ref_count_dec_self]
  by_cases hmove : rt.ref_count c - 1 = 0 ∧ rt.mark c = true
  · -- it is among those seen, and now without a count
    have hseen : c ∈ seen := by
      refine (List.mem_append.mp (h.owed c List.mem_cons_self)).resolve_right fun hahead => ?_
      rw [h.unmarked c hahead] at hmove
      cases hmove.2
    have hself : (rt.set_ref_count c (rt.ref_count c - 1)).ref_count c = 0 :=
      (ref_count_dec_self _).trans hmove.1
    have hc : c ∈ kept := (hmem c).mpr ⟨hseen, hpos⟩
    have hnot : c ∉ rt.tmp_obj_list := fun hc => hpos ((hmemtmp c).mp hc).2
    have herase : rt.tmp_obj_list.erase c = rt.tmp_obj_list := List.erase_of_not_mem hnot
    refine ⟨_, if_pos hmove, ⟨h.same.obj, ?_, h.same.freed, h.same.phase⟩, h.zero, h.nodup, hcount,
      howed, ⟨kept.erase c, ?_, hkept.erase c, fun x => ?_⟩, ⟨?_, fun x => ?_⟩, h.marked,
      h.unmarked⟩
    · show rt.gc_zero_ref_count_list.erase c = rt₀.gc_zero_ref_count_list
      rw [h.same.zero, h.zero]
      rfl
    · show rt.gc_obj_list.erase c = _
      rw [hgc, List.erase_append_left _ hc]
    · show _ ↔ _ ∧ (rt.set_ref_count c (rt.ref_count c - 1)).ref_count x ≠ 0
      rw [hkept.mem_erase_iff]
      by_cases hx : x = c
      · subst hx
        exact iff_of_false (fun h => h.1 rfl) fun h => h.2 hself
      · rw [ref_count_dec_of_ne hx, hmem, and_iff_right hx]
    · show (rt.tmp_obj_list.erase c ++ [c]).Nodup
      rw [herase]
      exact nodup_append_singleton htmp hnot
    · show x ∈ rt.tmp_obj_list.erase c ++ [c] ↔
        _ ∧ (rt.set_ref_count c (rt.ref_count c - 1)).ref_count x = 0
      rw [herase, List.mem_append, List.mem_singleton]
      by_cases hx : x = c
      · subst hx
        exact iff_of_true (.inr rfl) ⟨hseen, hself⟩
      · rw [ref_count_dec_of_ne hx, hmemtmp, or_iff_left hx]
  · have hstay : ∀ x ∈ seen,
        ((rt.set_ref_count c (rt.ref_count c - 1)).ref_count x = 0 ↔ rt.ref_count x = 0) := by
      intro x hx
      by_cases hxc : x = c
      · subst hxc
        rw [ref_count_dec_self]
        exact iff_of_false (fun hzero => hmove ⟨hzero, h.marked x hx⟩) hpos
      · rw [ref_count_dec_of_ne hxc]
    refine ⟨_, if_neg hmove, ⟨h.same.obj, h.same.zero, h.same.freed, h.same.phase⟩, h.zero,
      h.nodup, hcount, howed, ⟨kept, hgc, hkept, fun x => ?_⟩, ⟨htmp, fun x => ?_⟩, h.marked,
      h.unmarked⟩
    · rw [hmem]
      exact and_congr_right fun hx => (hstay x hx).not.symm
    · exact (hmemtmp x).trans (and_congr_right fun hx => (hstay x hx).symm)

theorem Decref.children {cs : List α} (h : Decref ext rt₀ rt seen ahead todo cs) :
    ∃ rt', releaseAll gc_decref_child rt cs = some rt' ∧
      Decref ext rt₀ rt' seen ahead todo [] := by
  induction cs generalizing rt with
  | nil => exact ⟨rt, rfl, h⟩
  | cons c cs ih =>
    obtain ⟨rt₁, hrun, h₁⟩ := h.child
    obtain ⟨rt₂, hrun', h₂⟩ := ih h₁
    refine ⟨rt₂, ?_, h₂⟩
    rw [releaseAll, hrun, Option.bind_some, hrun']

/-- The object in hand is marked, and set aside if it has no count. -/
theorem Decref.finish (h : Decref ext rt₀ rt seen (p :: ahead) ahead []) :
    Decref ext rt₀
      (if (rt.set_mark p true).ref_count p = 0 then (rt.set_mark p true).move_tmp p
        else rt.set_mark p true) (seen ++ [p]) ahead ahead [] := by
  obtain ⟨kept, hgc, hkept, hmem⟩ := h.gc
  obtain ⟨htmp, hmemtmp⟩ := h.tmp
  have hnodup : (seen ++ [p] ++ ahead).Nodup := by
    rw [List.append_assoc]
    exact h.nodup
  have hseen : p ∉ seen := by
    intro hp
    exact (List.nodup_append.mp h.nodup).2.2 p hp p List.mem_cons_self rfl
  have hahead : p ∉ ahead := (List.nodup_cons.mp (List.nodup_append.mp h.nodup).2.1).1
  have hnotkept : p ∉ kept := fun hp => hseen ((hmem p).mp hp).1
  have hnottmp : p ∉ rt.tmp_obj_list := fun hp => hseen ((hmemtmp p).mp hp).1
  have hne : ∀ x ∈ seen, x ≠ p := by
    rintro x hx rfl
    exact hseen hx
  have hmarked : ∀ x ∈ seen ++ [p], (rt.set_mark p true).mark x = true := by
    intro x hx
    show Function.update rt.mark p true x = true
    obtain hx | hx := List.mem_append.mp hx
    · rw [Function.update_of_ne (hne x hx)]
      exact h.marked x hx
    · rw [List.mem_singleton.mp hx, Function.update_self]
  have hunmarked : ∀ x ∈ ahead, (rt.set_mark p true).mark x = false := by
    intro x hx
    show Function.update rt.mark p true x = false
    have hxp : x ≠ p := fun heq => hahead (heq ▸ hx)
    rw [Function.update_of_ne hxp]
    exact h.unmarked x (List.mem_cons_of_mem p hx)
  by_cases hzero : rt.ref_count p = 0
  · rw [if_pos (show (rt.set_mark p true).ref_count p = 0 from hzero)]
    have herase : rt.tmp_obj_list.erase p = rt.tmp_obj_list := List.erase_of_not_mem hnottmp
    refine ⟨⟨h.same.obj, ?_, h.same.freed, h.same.phase⟩, h.zero, hnodup, h.count,
      List.forall_mem_nil _, ⟨kept, ?_, hkept, fun x => ?_⟩, ⟨?_, fun x => ?_⟩, hmarked, hunmarked⟩
    · show rt.gc_zero_ref_count_list.erase p = rt₀.gc_zero_ref_count_list
      rw [h.same.zero, h.zero]
      rfl
    · show rt.gc_obj_list.erase p = kept ++ ahead
      rw [hgc, List.erase_append_right _ hnotkept, List.erase_cons_head]
    · show x ∈ kept ↔ _ ∧ rt.ref_count x ≠ 0
      rw [hmem, List.mem_append, List.mem_singleton, or_and_right]
      refine (or_iff_left ?_).symm
      rintro ⟨rfl, hpos⟩
      exact hpos hzero
    · show (rt.tmp_obj_list.erase p ++ [p]).Nodup
      rw [herase]
      exact nodup_append_singleton htmp hnottmp
    · show x ∈ rt.tmp_obj_list.erase p ++ [p] ↔ _ ∧ rt.ref_count x = 0
      rw [herase, List.mem_append, List.mem_append, List.mem_singleton, hmemtmp, or_and_right]
      refine or_congr_right ?_
      exact (and_iff_left_of_imp fun hx => hx ▸ hzero).symm
  · rw [if_neg (show ¬(rt.set_mark p true).ref_count p = 0 from hzero)]
    refine ⟨⟨h.same.obj, h.same.zero, h.same.freed, h.same.phase⟩, h.zero, hnodup, h.count,
      List.forall_mem_nil _, ⟨kept ++ [p], ?_,
      nodup_append_singleton hkept hnotkept, fun x => ?_⟩, ⟨htmp, fun x => ?_⟩, hmarked, hunmarked⟩
    · show rt.gc_obj_list = kept ++ [p] ++ ahead
      rw [hgc, List.append_assoc]
      rfl
    · show _ ↔ _ ∧ rt.ref_count x ≠ 0
      rw [List.mem_append, List.mem_append, List.mem_singleton, hmem, or_and_right]
      refine or_congr_right ?_
      exact (and_iff_left_of_imp fun hx => hx ▸ hzero).symm
    · show x ∈ rt.tmp_obj_list ↔ _ ∧ rt.ref_count x = 0
      rw [hmemtmp, List.mem_append, List.mem_singleton, or_and_right]
      refine (or_iff_left ?_).symm
      rintro ⟨rfl, hzero'⟩
      exact hzero hzero'

/-- The loop of `gc_decref`, by induction on the objects to come. -/
theorem gcDecrefLoop_spec {n : ℕ} (h : Decref ext rt₀ rt seen todo todo [])
    (hclosed : ∀ x ∈ todo, ∀ y ∈ rt₀.children x, y ∈ seen ++ todo) (hn : todo.length ≤ n) :
    ∃ rt', gcDecrefLoop n todo.head? rt = some rt' ∧
      Decref ext rt₀ rt' (seen ++ todo) [] [] [] := by
  induction todo generalizing seen rt n with
  | nil =>
    rw [List.append_nil]
    refine ⟨rt, ?_, h⟩
    cases n <;> rfl
  | cons p todo ih =>
    obtain ⟨n, rfl⟩ : ∃ k, n = k + 1 := ⟨n - 1, by rw [List.length_cons] at hn; omega⟩
    obtain ⟨hp, hclosed⟩ := List.forall_mem_cons.mp hclosed
    obtain ⟨kept, hgc, hkept, hmem⟩ := h.gc
    have hstart : Decref ext rt₀ rt seen (p :: todo) todo (rt.obj p).mark_children := by
      refine { h with count := fun x => ?_, owed := fun x hx => ?_ }
      · have hcount := h.count x
        have hown : (rt.obj p).mark_children = rt₀.children p :=
          congrFun h.same.children p
        rw [refsFrom_cons, List.count_nil] at hcount
        rw [hown]
        omega
      · exact hp x (congrFun h.same.children p ▸ hx)
    obtain ⟨rt₁, hrun, h₁⟩ := hstart.children
    have hsplit : seen ++ [p] ++ todo = seen ++ p :: todo := by rw [List.append_assoc]; rfl
    obtain ⟨rt₂, hrun', h₂⟩ := ih (n := n) h₁.finish (by rw [hsplit]; exact hclosed)
      (Nat.le_of_succ_le_succ hn)
    rw [hsplit] at h₂
    have hnotkept : p ∉ kept := by
      intro hp
      exact (List.nodup_append.mp h.nodup).2.2 p ((hmem p).mp hp).1 p List.mem_cons_self rfl
    have hlisted : p ∈ rt.gc_obj_list := by
      rw [hgc]
      exact List.mem_append_right _ List.mem_cons_self
    have hunmarked : rt.mark p = false := h.unmarked p List.mem_cons_self
    refine ⟨rt₂, ?_, h₂⟩
    rw [List.head?_cons, gcDecrefLoop, if_neg, hrun, Option.bind_some]
    · rw [hgc, next_append hnotkept]
      exact hrun'
    · rintro (hnot | hmark)
      · exact hnot hlisted
      · rw [hunmarked] at hmark
        cases hmark

end Decref

/-! ## Giving references back -/

/-- The objects `counted` have their references again, and the last of those `seen` has those of
    `given`; the objects after it are `ahead`. What is not on the list has no count. -/
structure Scan (ext : α → ℕ) (rt₀ rt : JSRuntime α) (objs counted seen ahead given : List α) :
    Prop where
  same : SameHeap rt₀ rt
  zero : rt₀.gc_zero_ref_count_list = []
  nodup : objs.Nodup
  perm : (seen ++ ahead ++ rt.tmp_obj_list).Perm objs
  gc : rt.gc_obj_list = seen ++ ahead
  count : ∀ x, rt.ref_count x = ext x + refsFrom rt₀.children counted x + given.count x
  positive : ∀ x ∈ seen ++ ahead, rt.ref_count x ≠ 0
  none : ∀ x ∈ rt.tmp_obj_list, rt.ref_count x = 0
  reach : ∀ x ∈ seen ++ ahead, Reach rt₀.children (fun x => ext x ≠ 0) x
  unmarked : ∀ x ∈ seen, rt.mark x = false

section Scan

variable {ext : α → ℕ} {rt₀ rt : JSRuntime α} {objs counted seen ahead given : List α} {c p : α}

theorem ref_count_incr (rt : JSRuntime α) (given : List α) (c x : α) {n : ℕ}
    (h : rt.ref_count x = n + given.count x) :
    (rt.set_ref_count c (rt.ref_count c + 1)).ref_count x = n + (given ++ [c]).count x := by
  rw [List.count_append]
  by_cases hx : x = c
  · subst hx
    rw [ref_count_dec_self, List.count_singleton_self]
    omega
  · rw [ref_count_dec_of_ne hx, List.count_singleton, beq_eq_false_iff_ne.mpr (Ne.symm hx), h]
    rfl

/-- One reference is given back: the object is there already, or it comes from those set aside. -/
theorem Scan.child (h : Scan ext rt₀ rt objs counted seen ahead given) (hc : c ∈ objs)
    (hreach : Reach rt₀.children (fun x => ext x ≠ 0) c) :
    ∃ more, Scan ext rt₀ (gc_scan_incref_child rt c) objs counted seen (ahead ++ more) (given ++ [c]) := by
  have hcount := fun x => ref_count_incr rt given c x (h.count x)
  have hpositive : ∀ x, rt.ref_count x ≠ 0 ∨ x = c →
      (rt.set_ref_count c (rt.ref_count c + 1)).ref_count x ≠ 0 := by
    intro x hx
    by_cases hxc : x = c
    · subst hxc
      rw [ref_count_dec_self]
      exact Nat.succ_ne_zero _
    · rw [ref_count_dec_of_ne hxc]
      exact hx.resolve_right hxc
  rw [gc_scan_incref_child, ref_count_dec_self]
  have hlists := h.perm.nodup_iff.mpr h.nodup
  by_cases hone : rt.ref_count c + 1 = 1
  · have hzero : rt.ref_count c = 0 := by omega
    have hnotgc : c ∉ seen ++ ahead := fun hgc => h.positive c hgc hzero
    have htmp : c ∈ rt.tmp_obj_list :=
      (List.mem_append.mp (h.perm.mem_iff.mpr hc)).resolve_left hnotgc
    have hdisj : ∀ x ∈ rt.tmp_obj_list.erase c, x ≠ c := by
      intro x hx
      exact ((List.nodup_append.mp hlists).2.1.mem_erase_iff.mp hx).1
    rw [if_pos hone]
    refine ⟨[c], ⟨h.same.obj, ?_, h.same.freed, h.same.phase⟩, h.zero, h.nodup, ?_, ?_, hcount,
      fun x hx => ?_, fun x hx => ?_, fun x hx => ?_, fun x hx => ?_⟩
    · show rt.gc_zero_ref_count_list.erase c = rt₀.gc_zero_ref_count_list
      rw [h.same.zero, h.zero]
      rfl
    · refine List.Perm.trans ?_ h.perm
      rw [← List.append_assoc, List.append_assoc]
      exact (List.perm_cons_erase htmp).symm.append_left _
    · show rt.gc_obj_list.erase c ++ [c] = _
      rw [h.gc, List.erase_of_not_mem hnotgc, List.append_assoc]
    · rw [← List.append_assoc, List.mem_append, List.mem_singleton] at hx
      exact hpositive x (hx.imp_left (h.positive x))
    · exact (ref_count_dec_of_ne (hdisj x hx) _).trans (h.none x (List.mem_of_mem_erase hx))
    · rw [← List.append_assoc, List.mem_append, List.mem_singleton] at hx
      obtain hx | rfl := hx
      · exact h.reach x hx
      · exact hreach
    · show Function.update rt.mark c false x = false
      by_cases hxc : x = c
      · rw [hxc, Function.update_self]
      · rw [Function.update_of_ne hxc]
        exact h.unmarked x hx
  · have hpos : rt.ref_count c ≠ 0 := by omega
    rw [if_neg hone]
    refine ⟨[], ⟨h.same.obj, h.same.zero, h.same.freed, h.same.phase⟩, h.zero, h.nodup, ?_, ?_,
      hcount, fun x hx => ?_, fun x hx => ?_, fun x hx => ?_, h.unmarked⟩
    · rw [List.append_nil]
      exact h.perm
    · rw [List.append_nil]
      exact h.gc
    · rw [List.append_nil] at hx
      exact hpositive x (.inl (h.positive x hx))
    · have hxc : x ≠ c := by
        rintro rfl
        exact hpos (h.none x hx)
      exact (ref_count_dec_of_ne hxc _).trans (h.none x hx)
    · rw [List.append_nil] at hx
      exact h.reach x hx

theorem Scan.children {cs : List α} (h : Scan ext rt₀ rt objs counted seen ahead given)
    (hcs : ∀ c ∈ cs, c ∈ objs ∧ Reach rt₀.children (fun x => ext x ≠ 0) c) :
    ∃ more, Scan ext rt₀ (cs.foldl gc_scan_incref_child rt) objs counted seen (ahead ++ more)
      (given ++ cs) := by
  induction cs generalizing rt ahead given with
  | nil => exact ⟨[], by rwa [List.append_nil, List.append_nil]⟩
  | cons c cs ih =>
    obtain ⟨hc, hcs⟩ := List.forall_mem_cons.mp hcs
    obtain ⟨more, h₁⟩ := h.child hc.1 hc.2
    obtain ⟨more', h₂⟩ := ih h₁ hcs
    refine ⟨more ++ more', ?_⟩
    rw [List.append_assoc, List.append_assoc] at h₂
    exact h₂

/-- The loop over the list that grows, by induction on the objects that it can still get to. -/
theorem gcScanLoop_spec {n : ℕ} (h : Scan ext rt₀ rt objs seen seen ahead [])
    (hclosed : ∀ x ∈ objs, ∀ y ∈ rt₀.children x, y ∈ objs) (hn : objs.length ≤ n + seen.length) :
    ∃ rt' live, gcScanLoop n ahead.head? rt = some rt' ∧ Scan ext rt₀ rt' objs live live [] [] := by
  induction n generalizing rt seen ahead with
  | zero =>
    have hlength := h.perm.length_eq
    rw [List.length_append, List.length_append] at hlength
    obtain rfl : ahead = [] := List.length_eq_zero_iff.mp (by omega)
    exact ⟨rt, seen, rfl, h⟩
  | succ n ih =>
    cases ahead with
    | nil => exact ⟨rt, seen, rfl, h⟩
    | cons p ahead =>
      have hp : p ∈ seen ++ p :: ahead := List.mem_append_right _ List.mem_cons_self
      have hobjs : p ∈ objs := h.perm.mem_iff.mp (List.mem_append_left _ hp)
      have hsplit : seen ++ [p] ++ ahead = seen ++ p :: ahead := by rw [List.append_assoc]; rfl
      have hown : (rt.obj p).mark_children = rt₀.children p := congrFun h.same.children p
      have hmark : Scan ext rt₀ (rt.set_mark p false) objs seen (seen ++ [p]) ahead [] := by
        refine ⟨⟨h.same.obj, h.same.zero, h.same.freed, h.same.phase⟩, h.zero, h.nodup, ?_, ?_,
          h.count, ?_, h.none, ?_, fun x hx => ?_⟩
        · rw [hsplit]
          exact h.perm
        · rw [hsplit]
          exact h.gc
        · rw [hsplit]
          exact h.positive
        · rw [hsplit]
          exact h.reach
        · show Function.update rt.mark p false x = false
          by_cases hxp : x = p
          · rw [hxp, Function.update_self]
          · rw [Function.update_of_ne hxp]
            obtain hx | hx := List.mem_append.mp hx
            · exact h.unmarked x hx
            · exact absurd (List.mem_singleton.mp hx) hxp
      have hchildren : ∀ c ∈ (rt.obj p).mark_children,
          c ∈ objs ∧ Reach rt₀.children (fun x => ext x ≠ 0) c := by
        intro c hc
        rw [hown] at hc
        exact ⟨hclosed p hobjs c hc, .step (h.reach p hp) hc⟩
      obtain ⟨more, h₁⟩ := hmark.children hchildren
      have hcount : ∀ x, refsFrom rt₀.children seen x + (rt.obj p).mark_children.count x =
          refsFrom rt₀.children (seen ++ [p]) x := by
        intro x
        rw [refsFrom_append, refsFrom_cons, refsFrom_nil, hown, Nat.add_zero]
      have h₂ : Scan ext rt₀ _ objs (seen ++ [p]) (seen ++ [p]) (ahead ++ more) [] :=
        { h₁ with
          count := fun x => by
            have hx := h₁.count x
            rw [List.nil_append] at hx
            rw [List.count_nil, ← hcount]
            omega }
      obtain ⟨rt', live, hrun, h₃⟩ := ih h₂ (by
        rw [List.length_append, List.length_singleton]
        omega)
      refine ⟨rt', live, ?_, h₃⟩
      have hnodup := h₂.perm.nodup_iff.mpr h₂.nodup
      have hseen : p ∉ seen := by
        intro hmem
        rw [List.append_assoc, List.append_assoc] at hnodup
        exact (List.nodup_append.mp hnodup).2.2 p hmem p List.mem_cons_self rfl
      rw [List.head?_cons, gcScanLoop, if_neg (h.positive p hp)]
      dsimp only
      rw [h₂.gc, List.append_assoc, List.singleton_append, next_append hseen]
      exact hrun

/-- The second loop only counts. -/
theorem foldl_incref_child2 (cs : List α) (rt : JSRuntime α) :
    SameHeap rt (cs.foldl gc_scan_incref_child2 rt) ∧
      (cs.foldl gc_scan_incref_child2 rt).gc_obj_list = rt.gc_obj_list ∧
      (cs.foldl gc_scan_incref_child2 rt).tmp_obj_list = rt.tmp_obj_list ∧
      (cs.foldl gc_scan_incref_child2 rt).mark = rt.mark ∧
      ∀ x, (cs.foldl gc_scan_incref_child2 rt).ref_count x = rt.ref_count x + cs.count x := by
  induction cs generalizing rt with
  | nil => exact ⟨⟨rfl, rfl, rfl, rfl⟩, rfl, rfl, rfl, fun _ => rfl⟩
  | cons c cs ih =>
    obtain ⟨hsame, hgc, htmp, hmark, hcount⟩ := ih (gc_scan_incref_child2 rt c)
    refine ⟨⟨hsame.obj, hsame.zero, hsame.freed, hsame.phase⟩, hgc, htmp, hmark, fun x => ?_⟩
    have hx : (gc_scan_incref_child2 rt c).ref_count x = rt.ref_count x + [c].count x :=
      ref_count_incr rt [] c x (by rw [List.count_nil, Nat.add_zero])
    rw [List.foldl_cons, hcount, hx, Nat.add_assoc, ← List.count_append]
    rfl

theorem foldl_restore (ps : List α) (rt : JSRuntime α) :
    let rt' := ps.foldl (fun rt p => (rt.obj p).mark_children.foldl gc_scan_incref_child2 rt) rt
    SameHeap rt rt' ∧ rt'.gc_obj_list = rt.gc_obj_list ∧ rt'.tmp_obj_list = rt.tmp_obj_list ∧
      rt'.mark = rt.mark ∧ ∀ x, rt'.ref_count x = rt.ref_count x + refsFrom rt.children ps x := by
  induction ps generalizing rt with
  | nil => exact ⟨⟨rfl, rfl, rfl, rfl⟩, rfl, rfl, rfl, fun _ => rfl⟩
  | cons p ps ih =>
    obtain ⟨hsame, hgc, htmp, hmark, hcount⟩ := foldl_incref_child2 (rt.obj p).mark_children rt
    obtain ⟨hsame', hgc', htmp', hmark', hcount'⟩ :=
      ih ((rt.obj p).mark_children.foldl gc_scan_incref_child2 rt)
    refine ⟨⟨hsame'.obj.trans hsame.obj, hsame'.zero.trans hsame.zero,
      hsame'.freed.trans hsame.freed, hsame'.phase.trans hsame.phase⟩, hgc'.trans hgc,
      htmp'.trans htmp, hmark'.trans hmark, fun x => ?_⟩
    have hx := hcount' x
    rw [hsame.children, hcount] at hx
    rw [refsFrom_cons, ← Nat.add_assoc]
    exact hx

end Scan

/-! ## The two passes -/

section Passes

variable {ext : α → ℕ} {objs : List α} {rt : JSRuntime α}

/-- The program goes on: no object is being freed or waits for it. -/
structure Running (ext : α → ℕ) (objs : List α) (rt : JSRuntime α) : Prop where
  counted : Counted ext rt.obj objs rt [] []
  phase : rt.gc_phase = .NONE
  zero : rt.gc_zero_ref_count_list = []
  unmarked : ∀ x ∈ rt.gc_obj_list, rt.mark x = false

theorem Running.tmp (h : Running ext objs rt) : rt.tmp_obj_list = [] :=
  (h.counted.waiting (by rw [h.phase]; decide)).1

theorem Running.perm (h : Running ext objs rt) : (rt.gc_obj_list ++ rt.freed).Perm objs := by
  have hperm := h.counted.perm
  rwa [h.tmp, h.zero, List.append_nil, List.append_nil] at hperm

theorem Running.nodup (h : Running ext objs rt) : rt.gc_obj_list.Nodup :=
  (List.nodup_append.mp (h.perm.nodup_iff.mpr h.counted.nodup)).1

/-- An object with a count is on the list. -/
theorem Running.mem_of_count (h : Running ext objs rt) {x : α} (hx : x ∈ objs)
    (hcount : rt.ref_count x ≠ 0) : x ∈ rt.gc_obj_list :=
  (List.mem_append.mp (h.perm.mem_iff.mpr hx)).resolve_right
    fun hfreed => hcount (h.counted.freed x hfreed).2

theorem Running.count (h : Running ext objs rt) (x : α) :
    rt.ref_count x = ext x + refsFrom rt.children rt.gc_obj_list x := by
  have hfreed : refsFrom rt.children rt.freed x = 0 :=
    refsFrom_eq_zero_of_nil (fun y hy => (h.counted.freed y hy).1) x
  rw [h.counted.count, ← refsFrom_perm _ h.perm, refsFrom_append, hfreed, List.count_nil,
    Nat.add_zero, Nat.add_zero]

theorem Running.mem_of_ext (h : Running ext objs rt) {x : α} (hx : ext x ≠ 0) :
    x ∈ rt.gc_obj_list := by
  have hcount := h.count x
  exact h.mem_of_count (h.counted.owned x (.inl hx)) (by omega)

theorem Running.closed (h : Running ext objs rt) {x y : α} (hx : x ∈ rt.gc_obj_list)
    (hy : y ∈ rt.children x) : y ∈ rt.gc_obj_list := by
  have hcount := h.count y
  have hrefs := refsFrom_ne_zero.mpr ⟨x, hx, hy⟩
  have hmem := h.counted.closed x (h.perm.mem_iff.mp (List.mem_append_left _ hx)) y hy
  exact h.mem_of_count hmem (by omega)

theorem Running.mem_freed (h : Running ext objs rt) {x : α} :
    x ∈ rt.freed ↔ x ∈ objs ∧ x ∉ rt.gc_obj_list := by
  have hdisj := (List.nodup_append.mp (h.perm.nodup_iff.mpr h.counted.nodup)).2.2
  rw [← h.perm.mem_iff, List.mem_append]
  constructor
  · exact fun hx => ⟨.inr hx, fun hgc => hdisj x hgc x hx rfl⟩
  · exact fun ⟨hx, hgc⟩ => hx.resolve_left hgc

/-- What can be reached is on the list. -/
theorem Running.mem_of_reach (h : Running ext objs rt) {x : α}
    (hx : Reach rt.children (fun x => ext x ≠ 0) x) : x ∈ rt.gc_obj_list :=
  hx.mem_of_closed (fun _ hext => h.mem_of_ext hext) fun _ hy _ hz => h.closed hy hz

/-- **References are taken away**: the objects without a reference of the program are set aside. -/
theorem gc_decref_spec (h : Running ext objs rt) :
    ∃ rt', gc_decref rt = some rt' ∧ Decref ext rt rt' rt.gc_obj_list [] [] [] := by
  have hstart : Decref ext rt { rt with tmp_obj_list := [] } [] rt.gc_obj_list rt.gc_obj_list [] := by
    refine ⟨⟨rfl, rfl, rfl, rfl⟩, h.zero, h.nodup, h.count, List.forall_mem_nil _,
      ⟨[], rfl, List.nodup_nil, fun x => ?_⟩, ⟨List.nodup_nil, fun x => ?_⟩, List.forall_mem_nil _,
      h.unmarked⟩
    · exact iff_of_false (List.not_mem_nil) fun hx => List.not_mem_nil hx.1
    · exact iff_of_false (List.not_mem_nil) fun hx => List.not_mem_nil hx.1
  exact gcDecrefLoop_spec hstart (fun x hx y hy => h.closed hx hy) (le_refl _)

/-- **References are given back**: what is set aside then is what cannot be reached. -/
theorem gc_scan_spec {rt₁ : JSRuntime α} (h : Running ext objs rt)
    (hdecref : Decref ext rt rt₁ rt.gc_obj_list [] [] []) :
    ∃ rt', gc_scan rt₁ = some rt' ∧ SameHeap rt rt' ∧
      (rt'.gc_obj_list ++ rt'.tmp_obj_list).Perm rt.gc_obj_list ∧
      rt'.ref_count = rt.ref_count ∧ (∀ x ∈ rt'.gc_obj_list, rt'.mark x = false) ∧
      ∀ x, x ∈ rt'.gc_obj_list ↔ Reach rt.children (fun x => ext x ≠ 0) x := by
  obtain ⟨kept, hgc, hkept, hmem⟩ := hdecref.gc
  obtain ⟨htmp, hmemtmp⟩ := hdecref.tmp
  rw [List.append_nil] at hgc
  have hcount : ∀ x, rt₁.ref_count x = ext x := fun x => by
    rw [hdecref.count x, refsFrom_nil, List.count_nil]
    rfl
  have hdisj : ∀ x ∈ kept, ∀ y ∈ rt₁.tmp_obj_list, x ≠ y := by
    rintro x hx y hy rfl
    exact ((hmem x).mp hx).2 ((hmemtmp x).mp hy).2
  have hperm : (kept ++ rt₁.tmp_obj_list).Perm rt.gc_obj_list := by
    refine (List.perm_ext_iff_of_nodup (List.nodup_append.mpr ⟨hkept, htmp, hdisj⟩) h.nodup).mpr
      fun x => ?_
    rw [List.mem_append, hmem, hmemtmp, ← and_or_left]
    exact and_iff_left (ne_or_eq _ _)
  have hstart : Scan ext rt rt₁ rt.gc_obj_list [] [] rt₁.gc_obj_list [] := by
    refine ⟨hdecref.same, h.zero, h.nodup, ?_, rfl, fun x => ?_, fun x hx => ?_, fun x hx => ?_,
      fun x hx => ?_, List.forall_mem_nil _⟩
    · rw [List.nil_append, hgc]
      exact hperm
    · rw [hcount, refsFrom_nil, List.count_nil]
      rfl
    · rw [List.nil_append, hgc] at hx
      exact ((hmem x).mp hx).2
    · exact ((hmemtmp x).mp hx).2
    · rw [List.nil_append, hgc] at hx
      refine .root ?_
      rw [← hcount]
      exact ((hmem x).mp hx).2
  have hfuel : rt.gc_obj_list.length ≤
      rt₁.gc_obj_list.length + rt₁.tmp_obj_list.length + ([] : List α).length := by
    rw [hgc, ← List.length_append, hperm.length_eq]
    exact le_refl _
  obtain ⟨rt₂, live, hrun, hscan⟩ := gcScanLoop_spec hstart (fun x hx y hy => h.closed hx hy) hfuel
  obtain ⟨hsame, hgc₃, htmp₃, hmark₃, hcount₃⟩ := foldl_restore rt₂.tmp_obj_list rt₂
  have hgc₂ := hscan.gc
  have hperm₂ := hscan.perm
  rw [List.append_nil] at hgc₂ hperm₂
  rw [← hgc₂] at hperm₂
  refine ⟨_, by rw [gc_scan, hrun, Option.map_some], ⟨hsame.obj.trans hscan.same.obj,
    hsame.zero.trans hscan.same.zero, hsame.freed.trans hscan.same.freed,
    hsame.phase.trans hscan.same.phase⟩, ?_, ?_, ?_, fun x => ?_⟩
  · rw [hgc₃, htmp₃]
    exact hperm₂
  · funext x
    rw [hcount₃, hscan.count, hscan.same.children, List.count_nil, h.count,
      ← refsFrom_perm _ hperm₂, refsFrom_append, hgc₂]
    omega
  · rw [hgc₃, hmark₃, hgc₂]
    exact hscan.unmarked
  · rw [hgc₃, hgc₂]
    constructor
    · intro hx
      exact hscan.reach x (by rwa [List.append_nil])
    · -- what has a count is on the list
      have hlisted : ∀ x ∈ rt.gc_obj_list, rt₂.ref_count x ≠ 0 → x ∈ live := by
        intro x hx hpos
        rw [← hgc₂]
        refine (List.mem_append.mp (hperm₂.mem_iff.mpr hx)).resolve_right fun htmp => ?_
        exact hpos (hscan.none x htmp)
      refine fun hreach => hreach.mem_of_closed (S := (· ∈ live)) (fun y hy => ?_) fun y hy z hz => ?_
      · have hcount := hscan.count y
        exact hlisted y (h.mem_of_ext hy) (by omega)
      · have hcount := hscan.count z
        have hrefs := refsFrom_ne_zero.mpr ⟨y, hy, hz⟩
        have hmemy : y ∈ rt.gc_obj_list :=
          hperm₂.mem_iff.mp (List.mem_append_left _ (hgc₂ ▸ hy))
        exact hlisted z (h.closed hmemy hz) (by omega)

end Passes

end JSEngine.Collector
