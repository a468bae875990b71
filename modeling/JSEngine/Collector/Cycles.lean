import JSEngine.Collector.Trial

/-!
# Freeing cycles

`gc_free_cycles` frees the values among the objects that were set aside. They refer to each other, so
what others still refer to is kept until the end. The other objects are not freed by the loop, but
when the last value that refers to them is.

* `freeCyclesLoop_spec`: the loop gets to the end, and only values are kept;
* `JS_RunGC_spec`: a collection frees what cannot be reached and nothing else, and the counts are
  right afterwards.
-/

namespace JSEngine.Collector

open JSEngine.Common.References

variable {α : Type*} [DecidableEq α] {ext : α → ℕ} {obj : α → JSGCObject α} {objs : List α}
  {rt : JSRuntime α}

/-- A value that was set aside is freed, or kept until the end. -/
theorem free_cyclic {p : α} (h : Counted ext obj objs rt [] [])
    (hphase : rt.gc_phase = .REMOVE_CYCLES) (hp : p ∈ rt.tmp_obj_list)
    (hvalue : (rt.type p).IsValue) :
    ∃ rt', free_gc_object rt p = some rt' ∧ Counted ext obj objs rt' [] [] ∧ Shrinks rt rt' ∧
      rt'.gc_phase = .REMOVE_CYCLES ∧ rt'.gc_obj_list = rt.gc_obj_list ∧
      rt'.tmp_obj_list.length < rt.tmp_obj_list.length := by
  have hlists := List.mem_append_left rt.gc_zero_ref_count_list
    (List.mem_append_right rt.gc_obj_list hp)
  have hmem : p ∈ objs := h.mem_objs.mpr (.inl hlists)
  have hgc : p ∉ rt.gc_obj_list := by
    intro hgc
    have hnodup := (List.nodup_append.mp (List.nodup_append.mp h.nodup_lists).1).1
    exact (List.nodup_append.mp hnodup).2.2 p hgc p hp rfl
  obtain ⟨rt', hrun, hcounted, hframe, hnil⟩ :=
    release_value h (by rw [hphase]; decide) hmem hgc
  have hphase' := hframe.phase.trans hphase
  have hgc' := hframe.gc_eq hphase
  have hp' := hframe.tmp_value p hp hvalue
  have hfreed' := hcounted.not_freed (List.mem_append_left _ (List.mem_append_right _ hp'))
  have hnotgc : p ∉ rt'.gc_obj_list := by rwa [hgc']
  have herase : rt'.gc_obj_list.erase p = rt.gc_obj_list := by
    rw [List.erase_of_not_mem hnotgc, hgc']
  have hlength : (rt'.tmp_obj_list.erase p).length < rt.tmp_obj_list.length := by
    have hle := hframe.tmp
    have hpos := List.length_pos_of_mem hp'
    rw [List.length_erase_of_mem hp']
    omega
  rw [free_gc_object, hrun, Option.map_some]
  by_cases hzero : rt'.ref_count p = 0
  · rw [if_neg fun hkeep => hkeep.2 hzero]
    exact ⟨_, rfl, hcounted.free (fun _ _ => Iff.rfl) List.not_mem_nil hmem hfreed' hnil hzero,
      hframe.toShrinks.trans (shrinks_free rt' p), hphase', herase, hlength⟩
  · rw [if_pos ⟨hphase', hzero⟩]
    refine ⟨_, rfl, hcounted.move_zero_tail hmem hfreed' hnotgc hphase' fun _ => hnil,
      hframe.toShrinks.trans ?_, hphase', herase, hlength⟩
    exact ⟨rfl, rfl, fun _ => le_refl _, fun _ h => h, List.erase_subset, List.prefix_refl _,
      List.length_erase_le⟩

/-- The loop of `gc_free_cycles`, by induction on the objects set aside. -/
theorem freeCyclesLoop_spec {n : ℕ} (h : Counted ext obj objs rt [] [])
    (hphase : rt.gc_phase = .REMOVE_CYCLES) (hn : rt.tmp_obj_list.length < n) :
    ∃ rt', freeCyclesLoop n rt = some rt' ∧ Counted ext obj objs rt' [] [] ∧ Shrinks rt rt' ∧
      rt'.gc_phase = .REMOVE_CYCLES ∧ rt'.gc_obj_list = rt.gc_obj_list ∧
      rt'.tmp_obj_list = [] := by
  induction n generalizing rt with
  | zero => exact absurd hn (Nat.not_lt_zero _)
  | succ n ih =>
    rw [freeCyclesLoop]
    cases hlist : rt.tmp_obj_list with
    | nil => exact ⟨rt, rfl, h, Shrinks.refl rt, hphase, rfl, hlist⟩
    | cons p ps =>
      have hp : p ∈ rt.tmp_obj_list := hlist ▸ List.mem_cons_self
      dsimp only
      by_cases hvalue : (rt.type p).IsValue
      · obtain ⟨rt₁, hrun, h₁, hshrinks, hphase₁, hgc₁, hlt⟩ := free_cyclic h hphase hp hvalue
        obtain ⟨rt₂, hrun', h₂, hshrinks', hphase₂, hgc₂, htmp₂⟩ := ih h₁ hphase₁ (by omega)
        refine ⟨rt₂, ?_, h₂, hshrinks.trans hshrinks', hphase₂, hgc₂.trans hgc₁, htmp₂⟩
        rw [if_pos (show (rt.obj p).gc_obj_type.IsValue from hvalue), hrun, Option.bind_some, hrun']
      · have hlists := List.mem_append_left rt.gc_zero_ref_count_list
          (List.mem_append_right rt.gc_obj_list hp)
        have hmem : p ∈ objs := h.mem_objs.mpr (.inl hlists)
        have hgc : p ∉ rt.gc_obj_list := by
          intro hgc
          have hnodup := (List.nodup_append.mp (List.nodup_append.mp h.nodup_lists).1).1
          exact (List.nodup_append.mp hnodup).2.2 p hgc p hp rfl
        have h₁ := h.move_zero_tail hmem (h.not_freed hlists) hgc hphase
          fun hvalue' => absurd hvalue' hvalue
        have hlt : (rt.move_zero_tail p).tmp_obj_list.length < n := by
          show (rt.tmp_obj_list.erase p).length < n
          have hpos := List.length_pos_of_mem hp
          rw [List.length_erase_of_mem hp]
          omega
        have hshrinks : Shrinks rt (rt.move_zero_tail p) :=
          ⟨rfl, rfl, fun _ => le_refl _, fun _ h => h, List.erase_subset, List.prefix_refl _,
            List.length_erase_le⟩
        obtain ⟨rt₂, hrun', h₂, hshrinks', hphase₂, hgc₂, htmp₂⟩ := ih h₁ hphase hlt
        refine ⟨rt₂, ?_, h₂, hshrinks.trans hshrinks', hphase₂, hgc₂.trans ?_, htmp₂⟩
        · rw [if_neg (show ¬(rt.obj p).gc_obj_type.IsValue from hvalue)]
          exact hrun'
        · exact List.erase_of_not_mem hgc

/-- The live objects refer to live ones only. -/
def LiveClosed (rt : JSRuntime α) : Prop :=
  ∀ x ∈ rt.gc_obj_list, ∀ y ∈ rt.children x, y ∈ rt.gc_obj_list

/-- After the loop only values are kept: an object of another type would have to be referred to by
    one still nearer to the roots. -/
theorem kept_isValue (h : Counted ext obj objs rt [] []) (hphase : rt.gc_phase = .REMOVE_CYCLES)
    (htmp : rt.tmp_obj_list = []) (hclosed : LiveClosed rt)
    (hext : ∀ x, ext x ≠ 0 → x ∈ rt.gc_obj_list) :
    ∀ x ∈ rt.gc_zero_ref_count_list, (rt.type x).IsValue := by
  have hdisj : ∀ x ∈ rt.gc_zero_ref_count_list, x ∉ rt.gc_obj_list := by
    intro x hx hgc
    have hnodup := (List.nodup_append.mp h.nodup_lists).1
    exact (List.nodup_append.mp hnodup).2.2 x (List.mem_append_left _ hgc) x hx rfl
  have hdepth : ∀ k, ∀ x ∈ rt.gc_zero_ref_count_list, ¬(rt.type x).IsValue →
      2 < (rt.type x).depth + k → False := by
    intro k
    induction k with
    | zero =>
      intro x hx hvalue hlt
      have hle : (rt.type x).depth ≤ 2 := by cases rt.type x <;> decide
      omega
    | succ k ih =>
      intro x hx hvalue hlt
      have hlists := List.mem_append_right (rt.gc_obj_list ++ rt.tmp_obj_list) hx
      have hmem : x ∈ objs := h.mem_objs.mpr (.inl hlists)
      have hpos := h.positive x hmem (h.not_freed hlists) List.not_mem_nil hvalue
      have hzero : ext x = 0 := by
        by_contra hne
        exact hdisj x hx (hext x hne)
      have hcount := h.count x
      rw [List.count_nil] at hcount
      obtain ⟨y, hy, hyx⟩ := refsFrom_ne_zero.mp (show refsFrom rt.children objs x ≠ 0 by omega)
      -- what refers to it is kept too, and no value
      obtain hy' | hfreed := h.mem_objs.mp hy
      · rw [htmp, List.append_nil] at hy'
        obtain hgc | hkept := List.mem_append.mp hy'
        · exact hdisj x hx (hclosed y hgc x hyx)
        · have hvalue' : ¬(rt.type y).IsValue := by
            intro hvalue'
            rw [h.kept hphase y hkept hvalue'] at hyx
            cases hyx
          have hlt' := ((h.typed y hy).resolve_left hvalue') x hyx
          exact ih y hkept hvalue' (by
            have hlt' : (rt.type x).depth < (rt.type y).depth := hlt'
            omega)
      · rw [(h.freed y hfreed).1] at hyx
        cases hyx
  intro x hx
  by_contra hvalue
  exact hdepth 3 x hx hvalue (by omega)

/-! ## A collection -/

/-- What `gc_scan` leaves is what the loop starts from. -/
theorem Running.remove_cycles {rt₂ : JSRuntime α} (h : Running ext objs rt)
    (hsame : SameHeap rt rt₂) (hperm : (rt₂.gc_obj_list ++ rt₂.tmp_obj_list).Perm rt.gc_obj_list)
    (hcount : rt₂.ref_count = rt.ref_count)
    (hreach : ∀ x, x ∈ rt₂.gc_obj_list ↔ Reach rt.children (fun x => ext x ≠ 0) x) :
    Counted ext rt.obj objs { rt₂ with gc_phase := .REMOVE_CYCLES } [] [] := by
  have hchildren := hsame.children
  have htype : rt₂.type = rt.type := by
    funext x
    exact congrArg JSGCObject.gc_obj_type (congrFun hsame.obj x)
  have hzero : rt₂.gc_zero_ref_count_list = [] := hsame.zero.trans h.zero
  have hlive : ∀ x ∈ rt₂.gc_obj_list, x ∈ rt.gc_obj_list := fun x hx =>
    hperm.mem_iff.mp (List.mem_append_left _ hx)
  obtain ⟨gc, tmp, zero, phase, ref_count, mark, obj, freed⟩ := rt₂
  obtain rfl : obj = rt.obj := hsame.obj
  obtain rfl : freed = rt.freed := hsame.freed
  obtain rfl : ref_count = rt.ref_count := hcount
  obtain rfl : zero = [] := hzero
  have hc := h.counted
  refine ⟨hc.nodup, ?_, hc.count, hc.closed, hc.owned, hc.typed, hc.freed, hc.started, hc.positive,
    fun x hx hnot => hc.live x (hlive x hx) hnot, fun hphase => absurd rfl hphase,
    fun _ x hx => ?_, fun _ => List.forall_mem_nil _⟩
  · show (gc ++ tmp ++ [] ++ rt.freed).Perm objs
    rw [List.append_nil]
    exact (hperm.append_right _).trans h.perm
  · cases (hreach x).mp hx with
    | root hext => exact .inl hext
    | step hy hyx => exact .inr ⟨_, (hreach _).mpr hy, hyx⟩

/-- The values that were kept are freed at the end. -/
theorem finish_cycles (h : Counted ext obj objs rt [] []) (hphase : rt.gc_phase = .REMOVE_CYCLES)
    (htmp : rt.tmp_obj_list = []) (hclosed : LiveClosed rt)
    (hext : ∀ x, ext x ≠ 0 → x ∈ rt.gc_obj_list)
    (hunmarked : ∀ x ∈ rt.gc_obj_list, rt.mark x = false) :
    Running ext objs { rt with
      gc_phase := .NONE
      freed := rt.freed ++ rt.gc_zero_ref_count_list
      gc_zero_ref_count_list := [] } := by
  have hvalue := kept_isValue h hphase htmp hclosed hext
  have hnil : ∀ x ∈ rt.gc_zero_ref_count_list, rt.children x = [] := fun x hx =>
    h.kept hphase x hx (hvalue x hx)
  have hdisj : ∀ x ∈ rt.gc_zero_ref_count_list, x ∉ rt.gc_obj_list := by
    intro x hx hgc
    have hnodup := (List.nodup_append.mp h.nodup_lists).1
    exact (List.nodup_append.mp hnodup).2.2 x (List.mem_append_left _ hgc) x hx rfl
  have hzero : ∀ x ∈ rt.gc_zero_ref_count_list, rt.ref_count x = 0 := by
    intro x hx
    have hext : ext x = 0 := by
      by_contra hne
      exact hdisj x hx (hext x hne)
    have hrefs : refsFrom rt.children objs x = 0 := by
      refine refsFrom_eq_zero.mpr fun y hy hyx => ?_
      obtain hy | hfreed := h.mem_objs.mp hy
      · rw [htmp, List.append_nil] at hy
        obtain hgc | hkept := List.mem_append.mp hy
        · exact hdisj x hx (hclosed y hgc x hyx)
        · rw [hnil y hkept] at hyx
          cases hyx
      · rw [(h.freed y hfreed).1] at hyx
        cases hyx
    rw [h.count, hext, hrefs, List.count_nil]
  have hnone : JSGCPhaseEnum.NONE ≠ .REMOVE_CYCLES := by decide
  refine ⟨⟨h.nodup, ?_, h.count, h.closed, h.owned, h.typed, fun x hx => ?_, List.forall_mem_nil _,
    fun x hx hnot => ?_, fun x hx hnot => ⟨(h.live x hx hnot).1, rfl⟩,
    fun _ => ⟨htmp, List.forall_mem_nil _⟩, fun hcycles => absurd hcycles hnone,
    fun hcycles => absurd hcycles hnone⟩, rfl, rfl, hunmarked⟩
  · have hperm := h.perm
    rw [htmp, List.append_nil] at hperm
    show (rt.gc_obj_list ++ rt.tmp_obj_list ++ [] ++ (rt.freed ++ rt.gc_zero_ref_count_list)).Perm
      objs
    rw [htmp, List.append_nil, List.append_nil]
    refine List.Perm.trans ?_ hperm
    rw [List.append_assoc]
    exact List.perm_append_comm.append_left _
  · obtain hx | hx := List.mem_append.mp hx
    · exact h.freed x hx
    · exact ⟨hnil x hx, hzero x hx⟩
  · exact h.positive x hx fun hfreed => hnot (List.mem_append_left _ hfreed)

/-- **A collection** fails nowhere, keeps exactly what can be reached from the references of the
    program, as it was, and frees the rest; the counts are right afterwards. -/
theorem JS_RunGC_spec (h : Running ext objs rt) :
    ∃ rt', JS_RunGC rt = some rt' ∧ Running ext objs rt' ∧
      (∀ x, x ∈ rt'.gc_obj_list ↔ Reach rt.children (fun x => ext x ≠ 0) x) ∧
      (∀ x ∈ rt'.gc_obj_list, rt'.obj x = rt.obj x) ∧
      ∀ x, x ∈ rt'.freed ↔ x ∈ rt.freed ∨
        x ∈ rt.gc_obj_list ∧ ¬Reach rt.children (fun x => ext x ≠ 0) x := by
  obtain ⟨rt₁, hrun₁, hdecref⟩ := gc_decref_spec h
  obtain ⟨rt₂, hrun₂, hsame, hperm, hcount, hunmarked, hreach⟩ := gc_scan_spec h hdecref
  have hstart := h.remove_cycles hsame hperm hcount hreach
  obtain ⟨rt₃, hrun₃, hcounted, hshrinks, hphase, hgc, htmp⟩ :=
    freeCyclesLoop_spec hstart rfl (Nat.lt_succ_self _)
  have hgc : rt₃.gc_obj_list = rt₂.gc_obj_list := hgc
  have hobj : ∀ x ∈ rt₃.gc_obj_list, rt₃.obj x = rt.obj x := fun x hx =>
    (hcounted.live x hx List.not_mem_nil).2
  have hclosed : LiveClosed rt₃ := by
    intro x hx y hy
    have hown : rt₃.children x = rt.children x := congrArg JSGCObject.mark_children (hobj x hx)
    rw [hgc, hreach] at hx ⊢
    rw [hown] at hy
    exact .step hx hy
  have hext : ∀ x, ext x ≠ 0 → x ∈ rt₃.gc_obj_list := by
    intro x hx
    rw [hgc, hreach]
    exact .root hx
  have hmarks : ∀ x ∈ rt₃.gc_obj_list, rt₃.mark x = false := by
    intro x hx
    rw [hgc] at hx
    rw [hshrinks.mark]
    exact hunmarked x hx
  have hfinish := finish_cycles hcounted hphase htmp hclosed hext hmarks
  refine ⟨_, ?_, hfinish, fun x => ?_, hobj, fun x => ?_⟩
  · have hvalues : ∀ x ∈ rt₃.gc_zero_ref_count_list, (rt₃.obj x).gc_obj_type.IsValue :=
      kept_isValue hcounted hphase htmp hclosed hext
    rw [JS_RunGC, hrun₁, Option.bind_some, hrun₂, Option.bind_some, gc_free_cycles, hrun₃,
      Option.bind_some, if_pos hvalues]
  · show x ∈ rt₃.gc_obj_list ↔ _
    rw [hgc, hreach]
  · rw [hfinish.mem_freed, h.mem_freed]
    show _ ∧ x ∉ rt₃.gc_obj_list ↔ _
    rw [hgc, hreach]
    constructor
    · rintro ⟨hx, hnot⟩
      by_cases hlisted : x ∈ rt.gc_obj_list
      · exact .inr ⟨hlisted, hnot⟩
      · exact .inl ⟨hx, hlisted⟩
    · rintro (⟨hx, hlisted⟩ | ⟨hlisted, hnot⟩)
      · exact ⟨hx, fun hreach => hlisted (h.mem_of_reach hreach)⟩
      · exact ⟨h.counted.mem_objs_of_gc hlisted, hnot⟩

/-- Two objects that refer to each other, of which the program has the first, and one that only
    refers to itself. -/
def island : JSRuntime (Fin 3) where
  gc_obj_list := [0, 1, 2]
  tmp_obj_list := []
  gc_zero_ref_count_list := []
  gc_phase := .NONE
  ref_count := ![2, 1, 1]
  mark := fun _ => false
  obj := ![.js_object none [.value (some 1)] (.other [] none),
    .js_object none [.value (some 0)] (.other [] none),
    .js_object none [.value (some 2)] (.other [] none)]
  freed := []

theorem running_island : Running ![1, 0, 0] [0, 1, 2] island where
  counted :=
    { nodup := by decide
      perm := List.Perm.refl _
      count := by decide
      closed := by decide
      owned := by decide
      typed := by decide
      freed := List.forall_mem_nil _
      started := List.forall_mem_nil _
      positive := by decide
      live := fun x _ _ => ⟨by revert x; decide, rfl⟩
      waiting := fun _ => ⟨rfl, List.forall_mem_nil _⟩
      rooted := fun hcycles => absurd hcycles (by decide)
      kept := fun hcycles => absurd hcycles (by decide) }
  phase := rfl
  zero := rfl
  unmarked := by decide

theorem JS_RunGC_island :
    ∃ rt', JS_RunGC island = some rt' ∧ Running ![1, 0, 0] [0, 1, 2] rt' ∧
      (∀ x, x ∈ rt'.gc_obj_list ↔ Reach island.children (fun x => ![1, 0, 0] x ≠ 0) x) ∧
      (∀ x ∈ rt'.gc_obj_list, rt'.obj x = island.obj x) ∧
      ∀ x, x ∈ rt'.freed ↔ x ∈ island.freed ∨
        x ∈ island.gc_obj_list ∧ ¬Reach island.children (fun x => ![1, 0, 0] x ≠ 0) x :=
  JS_RunGC_spec running_island

end JSEngine.Collector
