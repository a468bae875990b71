import JSEngine.Collector.Objects

/-!
# Letting go of references

While references are let go of, a count is the references the program has, those objects have, and
those still to be let go of. `Counted` says so, with the objects whose freeing has begun, and
what holds in the phases of the runtime.

* `unref_spec`: letting go of one reference keeps the counts, and nothing fails;
* `free_waiting`: so does freeing an object that waits;
* `drains_free_zero_refcount`: so does freeing all that wait.
-/

namespace JSEngine.Collector

open JSEngine.Common.References

variable {α : Type*}

namespace JSRuntime

/-- The objects an object refers to. -/
def children (rt : JSRuntime α) (p : α) : List α := (rt.obj p).mark_children

def type (rt : JSRuntime α) (p : α) : JSGCObjectTypeEnum := (rt.obj p).gc_obj_type

end JSRuntime

variable [DecidableEq α]

/-! ## The invariant -/

/-- The counts of the objects `objs`, of which the program has `ext` references. The references
    `pending` are still to be let go of; the objects `freeing` are being freed. The live ones are as in `obj`. -/
structure Counted (ext : α → ℕ) (obj : α → JSGCObject α) (objs : List α) (rt : JSRuntime α)
    (pending freeing : List α) : Prop where
  nodup : objs.Nodup
  perm : (rt.gc_obj_list ++ rt.tmp_obj_list ++ rt.gc_zero_ref_count_list ++ rt.freed).Perm objs
  count : ∀ x, rt.ref_count x = ext x + refsFrom rt.children objs x + pending.count x
  closed : ∀ x ∈ objs, ∀ y ∈ rt.children x, y ∈ objs
  owned : ∀ x, ext x ≠ 0 ∨ x ∈ pending → x ∈ objs
  typed : ∀ x ∈ objs, (rt.obj x).Typed rt.type
  freed : ∀ x ∈ rt.freed, rt.children x = [] ∧ rt.ref_count x = 0
  started : ∀ x ∈ freeing, ¬(rt.type x).IsValue ∧ rt.ref_count x = 0 ∧ x ∈ objs ∧ x ∉ rt.freed
  positive : ∀ x ∈ objs, x ∉ rt.freed → x ∉ freeing → ¬(rt.type x).IsValue → rt.ref_count x ≠ 0
  live : ∀ x ∈ rt.gc_obj_list, x ∉ freeing → rt.ref_count x ≠ 0 ∧ rt.obj x = obj x
  waiting : rt.gc_phase ≠ .REMOVE_CYCLES → rt.tmp_obj_list = [] ∧
    ∀ x ∈ rt.gc_zero_ref_count_list, (rt.type x).IsValue ∧ rt.ref_count x = 0
  rooted : rt.gc_phase = .REMOVE_CYCLES → ∀ x ∈ rt.gc_obj_list,
    ext x ≠ 0 ∨ ∃ y ∈ rt.gc_obj_list, x ∈ rt.children y
  kept : rt.gc_phase = .REMOVE_CYCLES → ∀ x ∈ rt.gc_zero_ref_count_list,
    (rt.type x).IsValue → rt.children x = []

/-- Counts, references and lists only get smaller, and what is freed stays so. -/
structure Shrinks (rt rt' : JSRuntime α) : Prop where
  mark : rt'.mark = rt.mark
  type : rt'.type = rt.type
  count_le : ∀ x, rt'.ref_count x ≤ rt.ref_count x
  children : ∀ x, rt.children x = [] → rt'.children x = []
  gc_sub : rt'.gc_obj_list ⊆ rt.gc_obj_list
  freed : rt.freed <+: rt'.freed
  tmp : rt'.tmp_obj_list.length ≤ rt.tmp_obj_list.length

/-- While references are let go of, the values stay on their lists, and cycles are removed from
    nothing that lives. -/
structure Frame (rt rt' : JSRuntime α) : Prop extends Shrinks rt rt' where
  phase : rt'.gc_phase = rt.gc_phase
  gc_eq : rt.gc_phase = .REMOVE_CYCLES → rt'.gc_obj_list = rt.gc_obj_list
  tmp_value : ∀ x ∈ rt.tmp_obj_list, (rt.type x).IsValue → x ∈ rt'.tmp_obj_list
  zero_value : rt.gc_phase ≠ .NONE → ∀ x ∈ rt.gc_zero_ref_count_list, (rt.type x).IsValue →
    x ∈ rt'.gc_zero_ref_count_list

omit [DecidableEq α] in
theorem Shrinks.refl (rt : JSRuntime α) : Shrinks rt rt :=
  ⟨rfl, rfl, fun _ => le_refl _, fun _ h => h, List.Subset.refl _, List.prefix_refl _, le_refl _⟩

omit [DecidableEq α] in
theorem Shrinks.trans {rt₁ rt₂ rt₃ : JSRuntime α} (h : Shrinks rt₁ rt₂) (h' : Shrinks rt₂ rt₃) :
    Shrinks rt₁ rt₃ where
  mark := h'.mark.trans h.mark
  type := h'.type.trans h.type
  count_le x := (h'.count_le x).trans (h.count_le x)
  children x hx := h'.children x (h.children x hx)
  gc_sub := List.Subset.trans h'.gc_sub h.gc_sub
  freed := h.freed.trans h'.freed
  tmp := h'.tmp.trans h.tmp

omit [DecidableEq α] in
theorem Frame.refl (rt : JSRuntime α) : Frame rt rt :=
  ⟨Shrinks.refl rt, rfl, fun _ => rfl, fun _ h _ => h, fun _ _ h _ => h⟩

omit [DecidableEq α] in
theorem Frame.trans {rt₁ rt₂ rt₃ : JSRuntime α} (h : Frame rt₁ rt₂) (h' : Frame rt₂ rt₃) :
    Frame rt₁ rt₃ where
  toShrinks := h.toShrinks.trans h'.toShrinks
  phase := h'.phase.trans h.phase
  gc_eq hphase := (h'.gc_eq (h.phase.trans hphase)).trans (h.gc_eq hphase)
  tmp_value x hx hv := h'.tmp_value x (h.tmp_value x hx hv) (by rwa [h.type])
  zero_value hphase x hx hv :=
    h'.zero_value (by rwa [h.phase]) x (h.zero_value hphase x hx hv) (by rwa [h.type])

/-! ## Lists that an object is on one of -/

theorem erase_perm {a b d : List α} {c : α} (h : (a ++ b ++ d).Nodup) (hc : c ∈ a ++ b ++ d) :
    (c :: (a.erase c ++ b.erase c ++ d.erase c)).Perm (a ++ b ++ d) := by
  obtain ⟨hab, hd, hdisj⟩ := List.nodup_append.mp h
  obtain ⟨ha, hb, hdisj'⟩ := List.nodup_append.mp hab
  rw [List.mem_append, List.mem_append] at hc
  obtain (hc | hc) | hc := hc
  · have hcb : c ∉ b := fun hcb => hdisj' c hc c hcb rfl
    have hcd : c ∉ d := fun hcd => hdisj c (List.mem_append_left _ hc) c hcd rfl
    rw [List.erase_of_not_mem hcb, List.erase_of_not_mem hcd]
    exact ((List.perm_cons_erase hc).symm.append_right b).append_right d
  · have hca : c ∉ a := fun hca => hdisj' c hca c hc rfl
    have hcd : c ∉ d := fun hcd => hdisj c (List.mem_append_right _ hc) c hcd rfl
    rw [List.erase_of_not_mem hca, List.erase_of_not_mem hcd]
    have hmid : (c :: (a ++ b.erase c)).Perm (a ++ b) :=
      List.perm_middle.symm.trans ((List.perm_cons_erase hc).symm.append_left a)
    exact hmid.append_right d
  · have hcab : c ∉ a ++ b := fun hcab => hdisj c hcab c hc rfl
    have hca : c ∉ a := fun hca => hcab (List.mem_append_left _ hca)
    have hcb : c ∉ b := fun hcb => hcab (List.mem_append_right _ hcb)
    rw [List.erase_of_not_mem hca, List.erase_of_not_mem hcb]
    exact List.perm_middle.symm.trans ((List.perm_cons_erase hc).symm.append_left _)

section Counted

variable {ext : α → ℕ} {obj : α → JSGCObject α} {objs : List α} {rt : JSRuntime α}
  {pending freeing : List α} {c x : α}

theorem Counted.nodup_lists (h : Counted ext obj objs rt pending freeing) :
    (rt.gc_obj_list ++ rt.tmp_obj_list ++ rt.gc_zero_ref_count_list ++ rt.freed).Nodup :=
  h.perm.nodup_iff.mpr h.nodup

theorem Counted.mem_objs (h : Counted ext obj objs rt pending freeing) :
    x ∈ objs ↔ (x ∈ rt.gc_obj_list ++ rt.tmp_obj_list ++ rt.gc_zero_ref_count_list) ∨
      x ∈ rt.freed := by
  rw [← h.perm.mem_iff, List.mem_append]

theorem Counted.not_freed (h : Counted ext obj objs rt pending freeing)
    (hx : x ∈ rt.gc_obj_list ++ rt.tmp_obj_list ++ rt.gc_zero_ref_count_list) : x ∉ rt.freed :=
  fun hfreed => (List.nodup_append.mp h.nodup_lists).2.2 x hx x hfreed rfl

/-- The lists without an object. -/
theorem Counted.list_del_perm (h : Counted ext obj objs rt pending freeing) (hc : c ∈ objs)
    (hfreed : c ∉ rt.freed) :
    (c :: (rt.gc_obj_list.erase c ++ rt.tmp_obj_list.erase c ++
      rt.gc_zero_ref_count_list.erase c) ++ rt.freed).Perm objs := by
  have hlists := (h.mem_objs.mp hc).resolve_right hfreed
  exact ((erase_perm (List.nodup_append.mp h.nodup_lists).1 hlists).append_right _).trans h.perm

theorem Counted.mem_gc_erase (h : Counted ext obj objs rt pending freeing) :
    x ∈ rt.gc_obj_list.erase c ↔ x ≠ c ∧ x ∈ rt.gc_obj_list := by
  have hnodup := h.nodup_lists
  rw [List.append_assoc, List.append_assoc] at hnodup
  exact (List.nodup_append.mp hnodup).1.mem_erase_iff

/-- A pending reference is counted. -/
theorem Counted.count_pending (h : Counted ext obj objs rt (c :: pending) freeing) :
    rt.ref_count c ≠ 0 := by
  have hcount := h.count c
  rw [List.count_cons_self] at hcount
  omega

theorem Counted.pending_not_freed (h : Counted ext obj objs rt (c :: pending) freeing) :
    c ∉ rt.freed := fun hfreed => h.count_pending (h.freed c hfreed).2

theorem Counted.pending_not_freeing (h : Counted ext obj objs rt (c :: pending) freeing) :
    c ∉ freeing := fun hstarted => h.count_pending (h.started c hstarted).2.1

theorem Counted.mem_objs_of_gc (h : Counted ext obj objs rt pending freeing)
    (hx : x ∈ rt.gc_obj_list) : x ∈ objs :=
  h.mem_objs.mpr (.inl (List.mem_append_left _ (List.mem_append_left _ hx)))

/-- While cycles are removed, no count of a live object gets to zero. -/
theorem Counted.rooted_count (h : Counted ext obj objs rt pending freeing)
    (hphase : rt.gc_phase = .REMOVE_CYCLES) (hx : x ∈ rt.gc_obj_list) :
    ext x + refsFrom rt.children objs x ≠ 0 := by
  obtain hext | ⟨y, hy, hyx⟩ := h.rooted hphase x hx
  · omega
  · have hrefs := refsFrom_ne_zero.mpr ⟨y, h.mem_objs_of_gc hy, hyx⟩
    omega

/-! ## One reference less -/

theorem ref_count_dec_of_ne (hx : x ≠ c) (n : ℕ) :
    (rt.set_ref_count c n).ref_count x = rt.ref_count x := by
  show Function.update rt.ref_count c n x = rt.ref_count x
  rw [Function.update_of_ne hx]

theorem ref_count_dec_self (n : ℕ) : (rt.set_ref_count c n).ref_count c = n := by
  show Function.update rt.ref_count c n c = n
  rw [Function.update_self]

theorem Counted.count_dec (h : Counted ext obj objs rt (c :: pending) freeing) (x : α) :
    (rt.set_ref_count c (rt.ref_count c - 1)).ref_count x =
      ext x + refsFrom rt.children objs x + pending.count x := by
  have hcount := h.count x
  by_cases hx : x = c
  · subst hx
    rw [List.count_cons_self] at hcount
    rw [ref_count_dec_self]
    omega
  · rw [List.count_cons_of_ne (Ne.symm hx)] at hcount
    rw [ref_count_dec_of_ne hx, hcount]

/-- A count goes down, and the object stays where it is. -/
theorem Counted.dec (h : Counted ext obj objs rt (c :: pending) freeing)
    (hc : rt.ref_count c ≠ 1 ∨ (rt.type c).IsValue ∧ rt.gc_phase = .REMOVE_CYCLES) :
    Counted ext obj objs (rt.set_ref_count c (rt.ref_count c - 1)) pending freeing where
  nodup := h.nodup
  perm := h.perm
  count := h.count_dec
  closed := h.closed
  owned x hx := h.owned x (hx.imp_right (List.mem_cons_of_mem c))
  typed := h.typed
  freed x hx := by
    have hne : x ≠ c := fun heq => h.pending_not_freed (heq ▸ hx)
    rw [ref_count_dec_of_ne hne]
    exact h.freed x hx
  started x hx := by
    have hne : x ≠ c := fun heq => h.pending_not_freeing (heq ▸ hx)
    rw [ref_count_dec_of_ne hne]
    exact h.started x hx
  positive x hx hfreed hstarted hvalue := by
    by_cases hne : x = c
    · subst hne
      have hpos := h.count_pending
      have hone := hc.resolve_right fun hc => hvalue hc.1
      rw [ref_count_dec_self]
      omega
    · rw [ref_count_dec_of_ne hne]
      exact h.positive x hx hfreed hstarted hvalue
  live x hx hstarted := by
    obtain ⟨hpos, hobj⟩ := h.live x hx hstarted
    refine ⟨?_, hobj⟩
    by_cases hne : x = c
    · subst hne
      obtain hone | ⟨-, hphase⟩ := hc
      · rw [ref_count_dec_self]
        omega
      · have hroot := h.rooted_count hphase hx
        rw [h.count_dec]
        omega
    · rwa [ref_count_dec_of_ne hne]
  waiting hphase := by
    obtain ⟨htmp, hzero⟩ := h.waiting hphase
    refine ⟨htmp, fun x hx => ⟨(hzero x hx).1, ?_⟩⟩
    have hne : x ≠ c := fun heq => h.count_pending (heq ▸ (hzero x hx).2)
    rw [ref_count_dec_of_ne hne]
    exact (hzero x hx).2
  rooted := h.rooted
  kept := h.kept

/-- The freeing of an object that is no value begins. -/
theorem Counted.dec_start (h : Counted ext obj objs rt (c :: pending) freeing)
    (hone : rt.ref_count c = 1) (hvalue : ¬(rt.type c).IsValue) :
    Counted ext obj objs (rt.set_ref_count c (rt.ref_count c - 1)) pending (c :: freeing) where
  nodup := h.nodup
  perm := h.perm
  count := h.count_dec
  closed := h.closed
  owned x hx := h.owned x (hx.imp_right (List.mem_cons_of_mem c))
  typed := h.typed
  freed x hx := by
    have hne : x ≠ c := fun heq => h.pending_not_freed (heq ▸ hx)
    rw [ref_count_dec_of_ne hne]
    exact h.freed x hx
  started x hx := by
    obtain rfl | hx := List.mem_cons.mp hx
    · refine ⟨hvalue, ?_, h.owned x (.inr List.mem_cons_self), h.pending_not_freed⟩
      rw [ref_count_dec_self, hone]
    · have hne : x ≠ c := fun heq => h.pending_not_freeing (heq ▸ hx)
      rw [ref_count_dec_of_ne hne]
      exact h.started x hx
  positive x hx hfreed hstarted hvalue := by
    obtain ⟨hne, hstarted⟩ := not_or.mp (List.mem_cons.not.mp hstarted)
    rw [ref_count_dec_of_ne hne]
    exact h.positive x hx hfreed hstarted hvalue
  live x hx hstarted := by
    obtain ⟨hne, hstarted⟩ := not_or.mp (List.mem_cons.not.mp hstarted)
    rw [ref_count_dec_of_ne hne]
    exact h.live x hx hstarted
  waiting hphase := by
    obtain ⟨htmp, hzero⟩ := h.waiting hphase
    refine ⟨htmp, fun x hx => ⟨(hzero x hx).1, ?_⟩⟩
    have hne : x ≠ c := fun heq => hvalue (heq ▸ (hzero x hx).1)
    rw [ref_count_dec_of_ne hne]
    exact (hzero x hx).2
  rooted := h.rooted
  kept := h.kept

/-- A value whose last reference is let go of waits to be freed. -/
theorem Counted.dec_wait (h : Counted ext obj objs rt (c :: pending) freeing)
    (hone : rt.ref_count c = 1) (hvalue : (rt.type c).IsValue)
    (hphase : rt.gc_phase ≠ .REMOVE_CYCLES) :
    Counted ext obj objs ((rt.set_ref_count c (rt.ref_count c - 1)).move_zero c) pending
      freeing where
  nodup := h.nodup
  perm := by
    have hlists := h.list_del_perm (h.owned c (.inr List.mem_cons_self)) h.pending_not_freed
    refine List.Perm.trans (List.Perm.append_right _ ?_) hlists
    exact List.perm_middle
  count := h.count_dec
  closed := h.closed
  owned x hx := h.owned x (hx.imp_right (List.mem_cons_of_mem c))
  typed := h.typed
  freed x hx := by
    have hne : x ≠ c := fun heq => h.pending_not_freed (heq ▸ hx)
    exact ⟨(h.freed x hx).1, (ref_count_dec_of_ne hne _).trans (h.freed x hx).2⟩
  started x hx := by
    have hne : x ≠ c := fun heq => h.pending_not_freeing (heq ▸ hx)
    obtain ⟨hvalue, hcount, hmem⟩ := h.started x hx
    exact ⟨hvalue, (ref_count_dec_of_ne hne _).trans hcount, hmem⟩
  positive x hx hfreed hstarted hvalue' := by
    have hne : x ≠ c := fun heq => hvalue' (heq ▸ hvalue)
    exact fun hzero => h.positive x hx hfreed hstarted hvalue'
      ((ref_count_dec_of_ne hne _).symm.trans hzero)
  live x hx hstarted := by
    obtain ⟨hne, hx⟩ := h.mem_gc_erase.mp hx
    obtain ⟨hpos, hobj⟩ := h.live x hx hstarted
    exact ⟨fun hzero => hpos ((ref_count_dec_of_ne hne _).symm.trans hzero), hobj⟩
  waiting _ := by
    obtain ⟨htmp, hzero⟩ := h.waiting hphase
    have herase : rt.tmp_obj_list.erase c = [] := by rw [htmp]; rfl
    refine ⟨herase, fun x hx => ?_⟩
    obtain rfl | hx := List.mem_cons.mp hx
    · refine ⟨hvalue, (ref_count_dec_self _).trans ?_⟩
      rw [hone]
    · have hx := List.mem_of_mem_erase hx
      have hne : x ≠ c := fun heq => h.count_pending (heq ▸ (hzero x hx).2)
      exact ⟨(hzero x hx).1, (ref_count_dec_of_ne hne _).trans (hzero x hx).2⟩
  rooted hphase' := absurd hphase' hphase
  kept hphase' := absurd hphase' hphase

/-! ## Taking an object apart -/

theorem type_take (rt : JSRuntime α) (c : α) : (rt.take c).type = rt.type := by
  funext x
  show (Function.update rt.obj c (rt.obj c).emptied x).gc_obj_type = (rt.obj x).gc_obj_type
  by_cases hx : x = c
  · subst hx
    rw [Function.update_self, gc_obj_type_emptied]
  · rw [Function.update_of_ne hx]

theorem obj_take_of_ne (hx : x ≠ c) : (rt.take c).obj x = rt.obj x := by
  show Function.update rt.obj c (rt.obj c).emptied x = rt.obj x
  rw [Function.update_of_ne hx]

theorem children_take_self (rt : JSRuntime α) (c : α) : (rt.take c).children c = [] := by
  show (Function.update rt.obj c (rt.obj c).emptied c).mark_children = []
  rw [Function.update_self, mark_children_emptied]

theorem children_take_of_ne (hx : x ≠ c) : (rt.take c).children x = rt.children x :=
  congrArg JSGCObject.mark_children (obj_take_of_ne hx)

theorem children_take (rt : JSRuntime α) (c x : α) : (rt.take c).children x = rt.children x ∨
    (rt.take c).children x = [] := by
  by_cases hx : x = c
  · exact .inr (hx ▸ children_take_self rt c)
  · exact .inl (children_take_of_ne hx)

/-- The references of an object are let go of when it is taken apart. -/
theorem Counted.take (h : Counted ext obj objs rt pending freeing) (hc : c ∈ objs)
    (hgc : c ∈ rt.gc_obj_list → c ∈ freeing ∧ rt.gc_phase ≠ .REMOVE_CYCLES) :
    Counted ext obj objs (rt.take c) ((rt.obj c).releases ++ pending) freeing where
  nodup := h.nodup
  perm := h.perm
  count x := by
    have hreplace := refsFrom_replace (g := (rt.take c).children) h.nodup hc
      (fun y _ hy => children_take_of_ne hy) x
    have hreleases : (rt.obj c).releases.count x = (rt.children c).count x :=
      (releases_perm (rt.obj c)).count_eq x
    have hcount : rt.ref_count x = _ := h.count x
    rw [children_take_self rt c, List.count_nil] at hreplace
    show rt.ref_count x = _
    rw [List.count_append]
    omega
  closed x hx y hy := by
    obtain heq | hnil := children_take rt c x
    · exact h.closed x hx y (heq ▸ hy)
    · rw [hnil] at hy
      cases hy
  owned x hx := by
    obtain hx | hx := hx
    · exact h.owned x (.inl hx)
    · obtain hx | hx := List.mem_append.mp hx
      · exact h.closed c hc x ((releases_perm (rt.obj c)).mem_iff.mp hx)
      · exact h.owned x (.inr hx)
  typed x hx := by
    rw [type_take]
    by_cases hne : x = c
    · subst hne
      refine .inr fun y hy => ?_
      have hnil := children_take_self rt x
      rw [JSRuntime.children] at hnil
      rw [hnil] at hy
      cases hy
    · rw [obj_take_of_ne hne]
      exact h.typed x hx
  freed x hx := by
    obtain ⟨hnil, hcount⟩ := h.freed x hx
    obtain heq | hnil' := children_take rt c x
    · exact ⟨heq.trans hnil, hcount⟩
    · exact ⟨hnil', hcount⟩
  started x hx := by
    rw [type_take]
    exact h.started x hx
  positive := by
    rw [type_take]
    exact h.positive
  live x hx hstarted := by
    have hne : x ≠ c := by
      rintro rfl
      exact hstarted (hgc hx).1
    rw [obj_take_of_ne hne]
    exact h.live x hx hstarted
  waiting := by
    rw [type_take]
    exact h.waiting
  rooted hphase x hx := by
    have hne : ∀ y ∈ rt.gc_obj_list, y ≠ c := by
      rintro y hy rfl
      exact (hgc hy).2 hphase
    obtain hext | ⟨y, hy, hyx⟩ := h.rooted hphase x hx
    · exact .inl hext
    · refine .inr ⟨y, hy, ?_⟩
      rwa [children_take_of_ne (hne y hy)]
  kept := by
    rw [type_take]
    intro hphase x hx hvalue
    obtain heq | hnil := children_take rt c x
    · exact heq.trans (h.kept hphase x hx hvalue)
    · exact hnil

/-! ## Giving memory back -/

/-- An object that nothing refers to any more is freed. -/
theorem Counted.free {started : List α} (h : Counted ext obj objs rt pending started)
    (hstarted : ∀ x, x ≠ c → (x ∈ started ↔ x ∈ freeing)) (hcs : c ∉ freeing) (hc : c ∈ objs)
    (hfreed : c ∉ rt.freed) (hnil : rt.children c = []) (hzero : rt.ref_count c = 0) :
    Counted ext obj objs (rt.free c) pending freeing where
  nodup := h.nodup
  perm := by
    refine List.Perm.trans ?_ (h.list_del_perm hc hfreed)
    show (_ ++ (rt.freed ++ [c])).Perm _
    rw [← List.append_assoc]
    exact List.perm_append_comm
  count := h.count
  closed := h.closed
  owned := h.owned
  typed := h.typed
  freed x hx := by
    obtain hx | hx := List.mem_append.mp hx
    · exact h.freed x hx
    · rw [List.mem_singleton.mp hx]
      exact ⟨hnil, hzero⟩
  started x hx := by
    have hne : x ≠ c := fun heq => hcs (heq ▸ hx)
    obtain ⟨hvalue, hcount, hmem, hnot⟩ := h.started x ((hstarted x hne).mpr hx)
    refine ⟨hvalue, hcount, hmem, fun hx => ?_⟩
    obtain hx | hx := List.mem_append.mp hx
    · exact hnot hx
    · exact hne (List.mem_singleton.mp hx)
  positive x hx hnot hnot' hvalue := by
    obtain ⟨hnot, hne⟩ := not_or.mp (List.mem_append.not.mp hnot)
    have hne : x ≠ c := fun heq => hne (List.mem_singleton.mpr heq)
    exact h.positive x hx hnot (fun hx => hnot' ((hstarted x hne).mp hx)) hvalue
  live x hx hnot := by
    obtain ⟨hne, hx⟩ := h.mem_gc_erase.mp hx
    exact h.live x hx fun hx => hnot ((hstarted x hne).mp hx)
  waiting hphase := by
    obtain ⟨htmp, hwait⟩ := h.waiting hphase
    have herase : rt.tmp_obj_list.erase c = [] := by rw [htmp]; rfl
    exact ⟨herase, fun x hx => hwait x (List.mem_of_mem_erase hx)⟩
  rooted hphase x hx := by
    have hnotgc : c ∉ rt.gc_obj_list := by
      intro hgc
      have hroot := h.rooted_count hphase hgc
      have hcount := h.count c
      omega
    have herase : rt.gc_obj_list.erase c = rt.gc_obj_list := List.erase_of_not_mem hnotgc
    have hx : x ∈ rt.gc_obj_list.erase c := hx
    rw [herase] at hx
    show ext x ≠ 0 ∨ ∃ y ∈ rt.gc_obj_list.erase c, x ∈ rt.children y
    rw [herase]
    exact h.rooted hphase x hx
  kept hphase x hx := h.kept hphase x (List.mem_of_mem_erase hx)

/-- An object is kept until the cycles are gone. -/
theorem Counted.move_zero_tail (h : Counted ext obj objs rt pending freeing) (hc : c ∈ objs)
    (hfreed : c ∉ rt.freed) (hgc : c ∉ rt.gc_obj_list) (hphase : rt.gc_phase = .REMOVE_CYCLES)
    (hnil : (rt.type c).IsValue → rt.children c = []) :
    Counted ext obj objs (rt.move_zero_tail c) pending freeing where
  nodup := h.nodup
  perm := by
    refine List.Perm.trans (List.Perm.append_right _ ?_) (h.list_del_perm hc hfreed)
    show (_ ++ (rt.gc_zero_ref_count_list.erase c ++ [c])).Perm _
    rw [← List.append_assoc]
    exact List.perm_append_comm
  count := h.count
  closed := h.closed
  owned := h.owned
  typed := h.typed
  freed := h.freed
  started := h.started
  positive := h.positive
  live x hx := h.live x (List.mem_of_mem_erase hx)
  waiting hphase' := absurd hphase hphase'
  rooted hphase x hx := by
    have herase : rt.gc_obj_list.erase c = rt.gc_obj_list := List.erase_of_not_mem hgc
    show ext x ≠ 0 ∨ ∃ y ∈ rt.gc_obj_list.erase c, x ∈ rt.children y
    rw [herase]
    exact h.rooted hphase x (List.mem_of_mem_erase hx)
  kept hphase x hx hvalue := by
    obtain hx | hx := List.mem_append.mp hx
    · exact h.kept hphase x (List.mem_of_mem_erase hx) hvalue
    · obtain rfl := List.mem_singleton.mp hx
      exact hnil hvalue

end Counted

/-! ## What each step leaves -/

section Frame

variable {rt : JSRuntime α} {c : α}

theorem frame_dec (rt : JSRuntime α) (c : α) :
    Frame rt (rt.set_ref_count c (rt.ref_count c - 1)) where
  phase := rfl
  mark := rfl
  type := rfl
  count_le x := by
    by_cases hx : x = c
    · subst hx
      rw [ref_count_dec_self]
      exact Nat.sub_le _ _
    · exact le_of_eq (ref_count_dec_of_ne hx _)
  children _ h := h
  gc_sub := List.Subset.refl _
  gc_eq _ := rfl
  freed := List.prefix_refl _
  tmp := le_refl _
  tmp_value _ h _ := h
  zero_value _ _ h _ := h

theorem frame_take (rt : JSRuntime α) (c : α) : Frame rt (rt.take c) where
  phase := rfl
  mark := rfl
  type := type_take rt c
  count_le _ := le_refl _
  children x h := (children_take rt c x).elim (fun heq => heq.trans h) id
  gc_sub := List.Subset.refl _
  gc_eq _ := rfl
  freed := List.prefix_refl _
  tmp := le_refl _
  tmp_value _ h _ := h
  zero_value _ _ h _ := h

theorem frame_move_zero (hphase : rt.gc_phase ≠ .REMOVE_CYCLES) (htmp : rt.tmp_obj_list = []) :
    Frame rt (rt.move_zero c) where
  phase := rfl
  mark := rfl
  type := rfl
  count_le _ := le_refl _
  children _ h := h
  gc_sub := List.erase_subset
  gc_eq h := absurd h hphase
  freed := List.prefix_refl _
  tmp := List.length_erase_le
  tmp_value x hx _ := by
    rw [htmp] at hx
    cases hx
  zero_value _ x hx _ := by
    by_cases hne : x = c
    · exact hne ▸ List.mem_cons_self
    · exact List.mem_cons_of_mem _ ((List.mem_erase_of_ne hne).mpr hx)

theorem shrinks_free (rt : JSRuntime α) (c : α) : Shrinks rt (rt.free c) where
  mark := rfl
  type := rfl
  count_le _ := le_refl _
  children _ h := h
  gc_sub := List.erase_subset
  freed := List.prefix_append _ _
  tmp := List.length_erase_le

theorem frame_free (hvalue : ¬(rt.type c).IsValue)
    (hgc : rt.gc_phase = .REMOVE_CYCLES → c ∉ rt.gc_obj_list) : Frame rt (rt.free c) where
  toShrinks := shrinks_free rt c
  phase := rfl
  gc_eq h := List.erase_of_not_mem (hgc h)
  tmp_value x hx hv := by
    have hne : x ≠ c := fun heq => hvalue (heq ▸ hv)
    exact (List.mem_erase_of_ne hne).mpr hx
  zero_value _ x hx hv := by
    have hne : x ≠ c := fun heq => hvalue (heq ▸ hv)
    exact (List.mem_erase_of_ne hne).mpr hx

end Frame

/-! ## Whole releases -/

section Release

variable {ext : α → ℕ} {obj : α → JSGCObject α} {objs : List α}

/-- Nothing failed, the counts are kept, and what waits is freed where the program goes on. -/
def Keeps (ext : α → ℕ) (obj : α → JSGCObject α) (objs : List α) (rt : JSRuntime α)
    (pending freeing : List α) (result : Option (JSRuntime α)) : Prop :=
  ∃ rt', result = some rt' ∧ Counted ext obj objs rt' pending freeing ∧ Frame rt rt' ∧
    (rt.gc_phase = .NONE → rt.gc_zero_ref_count_list = [] → rt'.gc_zero_ref_count_list = [])

/-- All that wait are freed, where no object is being freed yet. -/
def Drains (ext : α → ℕ) (obj : α → JSGCObject α) (objs : List α)
    (drain : JSRuntime α → Option (JSRuntime α)) : Prop :=
  ∀ rt pending freeing, Counted ext obj objs rt pending freeing → rt.gc_phase = .NONE →
    ∃ rt', drain rt = some rt' ∧ Counted ext obj objs rt' pending freeing ∧ Frame rt rt' ∧
      rt'.gc_zero_ref_count_list = []

/-- Letting go of one reference to an object less deep than `n` keeps the counts. -/
def Unrefs (ext : α → ℕ) (obj : α → JSGCObject α) (objs : List α)
    (drain : JSRuntime α → Option (JSRuntime α)) (n : ℕ) : Prop :=
  ∀ rt c pending freeing, Counted ext obj objs rt (c :: pending) freeing →
    (rt.gc_phase = .NONE → Drains ext obj objs drain) → (rt.type c).depth < n →
    Keeps ext obj objs rt pending freeing (unref drain n rt c)

theorem releaseAll_spec {drain : JSRuntime α → Option (JSRuntime α)} {n : ℕ}
    (hunref : Unrefs ext obj objs drain n) {rt : JSRuntime α} {cs pending freeing : List α}
    (h : Counted ext obj objs rt (cs ++ pending) freeing)
    (hdrain : rt.gc_phase = .NONE → Drains ext obj objs drain) (hcs : ∀ c ∈ cs, (rt.type c).depth < n) :
    Keeps ext obj objs rt pending freeing (releaseAll (unref drain n) rt cs) := by
  induction cs generalizing rt with
  | nil => exact ⟨rt, rfl, h, Frame.refl rt, fun _ hzero => hzero⟩
  | cons c cs ih =>
    obtain ⟨hc, hcs⟩ := List.forall_mem_cons.mp hcs
    obtain ⟨rt₁, hrun, hcounted, hframe, hzero⟩ := hunref rt c (cs ++ pending) freeing h hdrain hc
    obtain ⟨rt₂, hrun', hcounted', hframe', hzero'⟩ :=
      ih hcounted (fun hphase => hdrain (hframe.phase.symm.trans hphase))
        (fun x hx => by rw [hframe.type]; exact hcs x hx)
    refine ⟨rt₂, ?_, hcounted', hframe.trans hframe', fun hphase hnil => ?_⟩
    · rw [releaseAll, hrun, Option.bind_some, hrun']
    · exact hzero' (hframe.phase.trans hphase) (hzero hphase hnil)

/-- **One reference is let go of**, by induction on how deep the object is. -/
theorem unref_spec (drain : JSRuntime α → Option (JSRuntime α)) (n : ℕ) :
    Unrefs ext obj objs drain n := by
  induction n with
  | zero => exact fun _ _ _ _ _ _ hdepth => absurd hdepth (Nat.not_lt_zero _)
  | succ n ih =>
    intro rt c pending freeing h hdrain hdepth
    have hpos := h.count_pending
    rw [unref, if_neg hpos]
    dsimp only
    rw [ref_count_dec_self]
    by_cases hone : rt.ref_count c = 1
    · rw [if_neg (by omega)]
      show Keeps ext obj objs rt pending freeing (if (rt.type c).IsValue then
        if rt.gc_phase = .REMOVE_CYCLES then _
        else if rt.gc_phase = .NONE then _ else _ else _)
      by_cases hvalue : (rt.type c).IsValue
      · rw [if_pos hvalue]
        by_cases hphase : rt.gc_phase = .REMOVE_CYCLES
        · rw [if_pos hphase]
          exact ⟨_, rfl, h.dec (.inr ⟨hvalue, hphase⟩), frame_dec rt c, fun _ hzero => hzero⟩
        · rw [if_neg hphase]
          have hwait := h.dec_wait hone hvalue hphase
          have hframe := (frame_dec rt c).trans
            (frame_move_zero (c := c) hphase (h.waiting hphase).1)
          by_cases hnone : rt.gc_phase = .NONE
          · rw [if_pos hnone]
            obtain ⟨rt', hrun, hcounted, hframe', hzero⟩ := hdrain hnone _ _ _ hwait hnone
            exact ⟨rt', hrun, hcounted, hframe.trans hframe', fun _ _ => hzero⟩
          · rw [if_neg hnone]
            exact ⟨_, rfl, hwait, hframe, fun hphase => absurd hphase hnone⟩
      · rw [if_neg hvalue]
        have hstart := h.dec_start hone hvalue
        have hmem := h.owned c (.inr List.mem_cons_self)
        have hnotgc : rt.gc_phase = .REMOVE_CYCLES → c ∉ rt.gc_obj_list := by
          intro hphase hgc
          have hroot := h.rooted_count hphase hgc
          have hcount := h.count_dec c
          rw [ref_count_dec_self] at hcount
          omega
        have htake := hstart.take hmem fun hgc =>
          ⟨List.mem_cons_self, fun hphase => hnotgc hphase hgc⟩
        have hdepths : ∀ x ∈ (rt.obj c).releases, (rt.type x).depth < n := by
          intro x hx
          have hmark := (releases_perm (rt.obj c)).mem_iff.mp hx
          have htyped := ((h.typed c hmem).resolve_left hvalue) x hmark
          exact lt_of_lt_of_le htyped (Nat.lt_succ_iff.mp hdepth)
        have htype : ((rt.set_ref_count c (rt.ref_count c - 1)).take c).type = rt.type :=
          type_take _ c
        obtain ⟨rt', hrun, hcounted, hframe, hzero⟩ := releaseAll_spec ih htake hdrain
          (by rw [htype]; exact hdepths)
        have hframe' := ((frame_dec rt c).trans (frame_take _ c)).trans hframe
        obtain ⟨hvalue', hcount', hmem', hfreed'⟩ := hcounted.started c List.mem_cons_self
        have hfree := hcounted.free (fun x hx => List.mem_cons.trans (or_iff_right hx))
          h.pending_not_freeing hmem' hfreed' (hframe.children c (children_take_self _ c)) hcount'
        refine ⟨rt'.free c, ?_, hfree, hframe'.trans (frame_free hvalue' ?_), fun hphase hnil => ?_⟩
        · exact congrArg (Option.map fun rt => rt.free c) hrun
        · intro hphase
          have hphase := hframe'.phase.symm.trans hphase
          rw [hframe'.gc_eq hphase]
          exact hnotgc hphase
        · show rt'.gc_zero_ref_count_list.erase c = []
          rw [hzero hphase hnil]
          rfl
    · rw [if_pos (by omega)]
      exact ⟨_, rfl, h.dec (.inl hone), frame_dec rt c, fun _ hzero => hzero⟩

/-! ## Freeing values -/

/-- The references of a value that is freed are let go of, and it stays on its list meanwhile. -/
theorem release_value {rt : JSRuntime α} {p : α} {pending freeing : List α}
    (h : Counted ext obj objs rt pending freeing) (hphase : rt.gc_phase ≠ .NONE)
    (hp : p ∈ objs) (hgc : p ∉ rt.gc_obj_list) :
    ∃ rt', releaseAll (unref (fun _ => none) 3) (rt.take p) (rt.obj p).releases = some rt' ∧
      Counted ext obj objs rt' pending freeing ∧ Frame rt rt' ∧ rt'.children p = [] := by
  have htake := h.take hp fun hp => absurd hp hgc
  have hdepths : ∀ x ∈ (rt.obj p).releases, ((rt.take p).type x).depth < 3 := by
    intro x _
    cases (rt.take p).type x <;> decide
  obtain ⟨rt', hrun, hcounted, hframe, -⟩ := releaseAll_spec
    (unref_spec (fun _ => none) 3) htake (fun hnone => absurd hnone hphase) hdepths
  exact ⟨rt', hrun, hcounted, (frame_take rt p).trans hframe,
    hframe.children p (children_take_self rt p)⟩

/-- **A value is freed** that waits for it. -/
theorem free_waiting {rt : JSRuntime α} {p : α} {pending freeing : List α}
    (h : Counted ext obj objs rt pending freeing) (hphase : rt.gc_phase = .DECREF)
    (hp : p ∈ rt.gc_zero_ref_count_list) :
    ∃ rt', free_gc_object rt p = some rt' ∧ Counted ext obj objs rt' pending freeing ∧
      Shrinks rt rt' ∧ rt'.gc_phase = .DECREF ∧ rt.freed.length < rt'.freed.length := by
  have hne : rt.gc_phase ≠ .NONE := by rw [hphase]; decide
  have hne' : rt.gc_phase ≠ .REMOVE_CYCLES := by rw [hphase]; decide
  obtain ⟨hvalue, hzero⟩ := (h.waiting hne').2 p hp
  have hlists := List.mem_append_right (rt.gc_obj_list ++ rt.tmp_obj_list) hp
  have hmem : p ∈ objs := h.mem_objs.mpr (.inl hlists)
  have hgc : p ∉ rt.gc_obj_list := by
    intro hgc
    have hnodup := (List.nodup_append.mp h.nodup_lists).1
    exact (List.nodup_append.mp hnodup).2.2 p (List.mem_append_left _ hgc) p hp rfl
  obtain ⟨rt', hrun, hcounted, hframe, hnil⟩ := release_value h hne hmem hgc
  have hphase' : rt'.gc_phase = .DECREF := hframe.phase.trans hphase
  have hzero' : rt'.ref_count p = 0 := Nat.le_zero.mp (hzero ▸ hframe.count_le p)
  have hp' := hframe.zero_value hne p hp hvalue
  have hfreed' := hcounted.not_freed (List.mem_append_right _ hp')
  have hnot : p ∉ freeing := fun hp => (h.started p hp).1 hvalue
  refine ⟨rt'.free p, ?_, hcounted.free (fun _ _ => Iff.rfl) hnot hmem hfreed' hnil hzero',
    hframe.toShrinks.trans (shrinks_free rt' p), hphase', ?_⟩
  · rw [free_gc_object, hrun, Option.map_some, if_neg fun hcycles => hcycles.2 hzero']
  · have hlength := hframe.freed.length_le
    show rt.freed.length < (rt'.freed ++ [p]).length
    rw [List.length_append, List.length_singleton]
    omega

/-- The loop of `free_zero_refcount`, by induction on the objects that are left to free. -/
theorem freeZeroLoop_spec {rt : JSRuntime α} {pending freeing : List α} {n : ℕ}
    (h : Counted ext obj objs rt pending freeing) (hphase : rt.gc_phase = .DECREF)
    (hn : objs.length < n + rt.freed.length) :
    ∃ rt', freeZeroLoop n rt = some rt' ∧ Counted ext obj objs rt' pending freeing ∧
      Shrinks rt rt' ∧ rt'.gc_phase = .DECREF ∧ rt'.gc_zero_ref_count_list = [] := by
  have hne' : rt.gc_phase ≠ .REMOVE_CYCLES := by rw [hphase]; decide
  induction n generalizing rt with
  | zero =>
    have hlength := h.perm.length_eq
    rw [List.length_append] at hlength
    omega
  | succ n ih =>
    rw [freeZeroLoop]
    cases hlist : rt.gc_zero_ref_count_list with
    | nil => exact ⟨rt, rfl, h, Shrinks.refl rt, hphase, hlist⟩
    | cons p ps =>
      have hp : p ∈ rt.gc_zero_ref_count_list := hlist ▸ List.mem_cons_self
      have hzero := ((h.waiting hne').2 p hp).2
      obtain ⟨rt₁, hrun, hcounted, hshrinks, hphase₁, hlt⟩ := free_waiting h hphase hp
      obtain ⟨rt₂, hrun', hcounted', hshrinks', hphase₂, hnil⟩ :=
        ih hcounted hphase₁ (by omega) (by rw [hphase₁]; decide)
      refine ⟨rt₂, ?_, hcounted', hshrinks.trans hshrinks', hphase₂, hnil⟩
      dsimp only
      rw [if_neg fun hpos => hpos hzero, hrun, Option.bind_some, hrun']

/-- The phases in which no cycles are removed do not differ for the counts. -/
theorem Counted.set_phase {rt : JSRuntime α} {pending freeing : List α}
    (h : Counted ext obj objs rt pending freeing) (phase : JSGCPhaseEnum) (hne : rt.gc_phase ≠ .REMOVE_CYCLES)
    (hphase : phase ≠ .REMOVE_CYCLES) :
    Counted ext obj objs { rt with gc_phase := phase } pending freeing where
  nodup := h.nodup
  perm := h.perm
  count := h.count
  closed := h.closed
  owned := h.owned
  typed := h.typed
  freed := h.freed
  started := h.started
  positive := h.positive
  live := h.live
  waiting _ := h.waiting hne
  rooted hcycles := absurd hcycles hphase
  kept hcycles := absurd hcycles hphase

/-- **All that wait are freed**, and what waits because of that. -/
theorem drains_free_zero_refcount : Drains ext obj objs free_zero_refcount := by
  intro rt pending freeing h hphase
  have hne : rt.gc_phase ≠ .REMOVE_CYCLES := by rw [hphase]; decide
  have htmp := (h.waiting hne).1
  have hlength := h.perm.length_eq
  rw [List.length_append, List.length_append, List.length_append, htmp, List.length_nil] at hlength
  obtain ⟨rt', hrun, hcounted, hshrinks, hphase', hnil⟩ := freeZeroLoop_spec
    (n := rt.gc_obj_list.length + rt.gc_zero_ref_count_list.length + 1)
    (h.set_phase .DECREF hne (by decide)) rfl
    (show objs.length < _ + rt.freed.length by omega)
  have hne' : rt'.gc_phase ≠ .REMOVE_CYCLES := by rw [hphase']; decide
  refine ⟨{ rt' with gc_phase := .NONE }, ?_, hcounted.set_phase .NONE hne' (by decide), ?_, hnil⟩
  · rw [free_zero_refcount, hrun, Option.map_some]
  · exact {
      mark := hshrinks.mark
      type := hshrinks.type
      count_le := hshrinks.count_le
      children := hshrinks.children
      gc_sub := hshrinks.gc_sub
      freed := hshrinks.freed
      tmp := hshrinks.tmp
      phase := hphase.symm
      gc_eq := fun hcycles => absurd hcycles hne
      tmp_value := fun x hx _ => by rw [htmp] at hx; cases hx
      zero_value := fun hnone => absurd hphase hnone }

/-- **The program lets go of a reference.** -/
theorem JS_FreeValueRT_spec {rt : JSRuntime α} {c : α} {pending freeing : List α}
    (h : Counted ext obj objs rt (c :: pending) freeing) :
    Keeps ext obj objs rt pending freeing (JS_FreeValueRT rt c) := by
  refine unref_spec free_zero_refcount 3 rt c pending freeing h
    (fun _ => drains_free_zero_refcount) ?_
  cases rt.type c <;> decide

end Release

end JSEngine.Collector
