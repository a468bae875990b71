import JSEngine.Common.Machine
import JSEngine.Collector.Cycles

/-!
# Runs of the heap

The program makes objects, takes and lets go of references to them, stores references in objects and
takes them out, and has the cycles collected. It lets go only of references it has.

* `JS_FreeValueRT_keeps`: letting go of a reference frees nothing that can still be reached;
* `run_heap`: in every run no count is wrong, no object refers to freed memory, nothing is freed
  twice, and no assertion of the collector fails.
-/

namespace JSEngine.Collector

open JSEngine.Common JSEngine.Common.References

variable {α : Type*} [DecidableEq α]

/-! ## Letting go of a reference -/

section Free

variable {ext : α → ℕ} {objs : List α} {rt : JSRuntime α} {p : α}

/-- The reference that is let go of is a pending one. -/
theorem Running.pending (h : Running ext objs rt) (hp : ext p ≠ 0) :
    Counted (Function.update ext p (ext p - 1)) rt.obj objs rt [p] [] := by
  have hc := h.counted
  refine { hc with count := fun x => ?_, owned := fun x hx => ?_, rooted := fun hcycles => ?_ }
  · rw [hc.count, List.count_nil]
    by_cases hx : x = p
    · subst hx
      rw [Function.update_self, List.count_singleton_self]
      omega
    · rw [Function.update_of_ne hx, List.count_singleton, beq_eq_false_iff_ne.mpr (Ne.symm hx)]
      rfl
  · obtain hx | hx := hx
    · by_cases hxp : x = p
      · exact hc.owned x (.inl (hxp ▸ hp))
      · rw [Function.update_of_ne hxp] at hx
        exact hc.owned x (.inl hx)
    · rw [List.mem_singleton.mp hx]
      exact hc.owned p (.inl hp)
  · rw [h.phase] at hcycles
    cases hcycles

/-- **A reference is let go of**: nothing fails, the counts are right, and what can still be reached
    is there as it was; what is freed cannot be reached any more. -/
theorem JS_FreeValueRT_keeps (h : Running ext objs rt) (hp : ext p ≠ 0) :
    ∃ rt', JS_FreeValueRT rt p = some rt' ∧
      Running (Function.update ext p (ext p - 1)) objs rt' ∧
      (∀ x, Reach rt.children (fun x => Function.update ext p (ext p - 1) x ≠ 0) x →
        x ∈ rt'.gc_obj_list ∧ rt'.obj x = rt.obj x ∧ x ∉ rt'.freed) := by
  obtain ⟨rt', hrun, hcounted, hframe, hdrained⟩ := JS_FreeValueRT_spec (h.pending hp)
  have hlive : ∀ x ∈ rt'.gc_obj_list, rt'.ref_count x ≠ 0 ∧ rt'.obj x = rt.obj x := fun x hx =>
    hcounted.live x hx List.not_mem_nil
  have hrunning : Running (Function.update ext p (ext p - 1)) objs rt' :=
    ⟨{ hcounted with live := fun x hx _ => ⟨(hlive x hx).1, rfl⟩ }, hframe.phase.trans h.phase,
      hdrained h.phase h.zero, fun x hx => by
        rw [hframe.mark]
        exact h.unmarked x (hframe.gc_sub hx)⟩
  refine ⟨rt', hrun, hrunning, fun x hx => ?_⟩
  have hmem : x ∈ rt'.gc_obj_list := by
    refine hx.mem_of_closed (S := (· ∈ rt'.gc_obj_list)) (fun y hy => hrunning.mem_of_ext hy)
      fun y hy z hz => hrunning.closed hy ?_
    rwa [JSRuntime.children, (hlive y hy).2]
  exact ⟨hmem, (hlive x hmem).2, fun hfreed => (hrunning.mem_freed.mp hfreed).2 hmem⟩

end Free

theorem JS_FreeValueRT_island :
    ∃ rt', JS_FreeValueRT island 0 = some rt' ∧
      Running (Function.update ![1, 0, 0] 0 (![1, 0, 0] 0 - 1)) [0, 1, 2] rt' ∧
      (∀ x, Reach island.children
        (fun x => Function.update ![1, 0, 0] 0 (![1, 0, 0] 0 - 1) x ≠ 0) x →
        x ∈ rt'.gc_obj_list ∧ rt'.obj x = island.obj x ∧ x ∉ rt'.freed) :=
  JS_FreeValueRT_keeps running_island (by decide)

/-! ## The machine -/

/-- The heap, and how many references to each object the program has: those of its variables, of the
    stack and of other code. -/
structure Heap (α : Type*) where
  rt : JSRuntime α
  refs : α → ℕ

/-- What the program does. Memory is not given out again here. -/
inductive Action (α : Type*)
  | create (p : α) (o : JSGCObject α)
  | dup (p : α)
  | store (p : α) (o : JSGCObject α)
  | free (p : α)
  | collect

/-- The references an object takes from the program, and those it gives to it. -/
def Heap.exchange (s : Heap α) (given taken : List α) (x : α) : ℕ :=
  s.refs x + given.count x - taken.count x

/-- A new object is added (`add_gc_object`, lines 5525-5531), with one reference. Its fields are
    references that the program had. -/
def Heap.create (s : Heap α) (p : α) (o : JSGCObject α) : Heap α where
  rt := { s.rt with
    gc_obj_list := s.rt.gc_obj_list ++ [p]
    ref_count := Function.update s.rt.ref_count p 1
    mark := Function.update s.rt.mark p false
    obj := Function.update s.rt.obj p o }
  refs := Function.update (s.exchange [] o.mark_children) p 1

/-- `JS_DupValue`. -/
def Heap.dup (s : Heap α) (p : α) : Heap α where
  rt := s.rt.set_ref_count p (s.rt.ref_count p + 1)
  refs := Function.update s.refs p (s.refs p + 1)

/-- The fields of an object are exchanged for others, reference by reference. -/
def Heap.store (s : Heap α) (p : α) (o : JSGCObject α) : Heap α where
  rt := { s.rt with obj := Function.update s.rt.obj p o }
  refs := s.exchange (s.rt.children p) o.mark_children

/-- The heap takes actions of the program; none has an event. -/
def heap (α : Type*) [DecidableEq α] : Machine (Heap α) (Action α) Empty where
  init :=
    { rt :=
        { gc_obj_list := []
          tmp_obj_list := []
          gc_zero_ref_count_list := []
          gc_phase := .NONE
          ref_count := fun _ => 0
          mark := fun _ => false
          obj := fun _ => .js_context [] none
          freed := [] }
      refs := fun _ => 0 }
  step
    | s, .create p o => some (s.create p o, [])
    | s, .dup p => some (s.dup p, [])
    | s, .store p o => some (s.store p o, [])
    | s, .free p =>
      (JS_FreeValueRT s.rt p).map fun rt =>
        ({ rt := rt, refs := Function.update s.refs p (s.refs p - 1) }, [])
    | s, .collect => (JS_RunGC s.rt).map fun rt => ({ s with rt := rt }, [])

/-- The program gives an object only references it has, and takes only those the object has. It
    lets go of a reference only while it has one. -/
def Allowed (s : Heap α) : Action α → Prop
  | .create p o => p ∉ s.rt.gc_obj_list ∧ p ∉ s.rt.freed ∧ o.Typed s.rt.type ∧
    ∀ x ∈ o.mark_children, o.mark_children.count x ≤ s.refs x
  | .dup p => p ∈ s.rt.gc_obj_list
  | .store p o => p ∈ s.rt.gc_obj_list ∧ o.gc_obj_type = s.rt.type p ∧ o.Typed s.rt.type ∧
    ∀ x ∈ o.mark_children, o.mark_children.count x ≤ s.refs x + (s.rt.children p).count x
  | .free p => s.refs p ≠ 0
  | .collect => True

instance (s : Heap α) : ∀ a, Decidable (Allowed s a)
  | .create p o => inferInstanceAs (Decidable (p ∉ s.rt.gc_obj_list ∧ p ∉ s.rt.freed ∧
      o.Typed s.rt.type ∧ ∀ x ∈ o.mark_children, o.mark_children.count x ≤ s.refs x))
  | .dup p => inferInstanceAs (Decidable (p ∈ s.rt.gc_obj_list))
  | .store p o => inferInstanceAs (Decidable (p ∈ s.rt.gc_obj_list ∧
      o.gc_obj_type = s.rt.type p ∧ o.Typed s.rt.type ∧
      ∀ x ∈ o.mark_children, o.mark_children.count x ≤ s.refs x + (s.rt.children p).count x))
  | .free p => inferInstanceAs (Decidable (s.refs p ≠ 0))
  | .collect => isTrue trivial

/-- The objects there have been, in a heap in which all is right. -/
def Heap.Ok (s : Heap α) : Prop := ∃ objs, Running s.refs objs s.rt

theorem ok_init : (heap α).init.Ok := by
  refine ⟨[], ⟨⟨List.nodup_nil, List.Perm.refl _, fun _ => rfl, List.forall_mem_nil _,
    fun x hx => ?_, List.forall_mem_nil _, List.forall_mem_nil _, List.forall_mem_nil _,
    List.forall_mem_nil _, List.forall_mem_nil _, fun _ => ⟨rfl, List.forall_mem_nil _⟩,
    fun _ => List.forall_mem_nil _, fun _ => List.forall_mem_nil _⟩, rfl, rfl,
    List.forall_mem_nil _⟩⟩
  obtain hx | hx := hx
  · exact absurd rfl hx
  · exact absurd hx List.not_mem_nil

/-! ## What each action keeps -/

section Steps

variable {s : Heap α} {objs : List α} {p : α} {o : JSGCObject α}

omit [DecidableEq α] in
theorem JSGCObject.Typed.congr {type type' : α → JSGCObjectTypeEnum} (h : o.Typed type)
    (heq : ∀ x ∈ o.mark_children, type' x = type x) : o.Typed type' := by
  refine h.imp_right fun hdepth x hx => ?_
  rw [heq x hx]
  exact hdepth x hx

/-- The references of an object are counted as before, but for those of the object that changes. -/
theorem children_update_of_ne {rt : JSRuntime α} {x : α} (hx : x ≠ p) :
    (Function.update rt.obj p o x).mark_children = rt.children x := by
  rw [Function.update_of_ne hx]
  rfl

/-- Where no reference is taken that is not there, the exchange loses none. -/
theorem exchange_add (given taken : List α)
    (h : ∀ x ∈ taken, taken.count x ≤ s.refs x + given.count x) (x : α) :
    s.exchange given taken x + taken.count x = s.refs x + given.count x := by
  rw [Heap.exchange]
  by_cases hx : x ∈ taken
  · have hle := h x hx
    omega
  · rw [List.count_eq_zero.mpr hx]
    rfl

theorem ok_create (h : Running s.refs objs s.rt) (hp : p ∉ s.rt.gc_obj_list)
    (hfreed : p ∉ s.rt.freed) (htyped : o.Typed s.rt.type)
    (hrefs : ∀ x ∈ o.mark_children, o.mark_children.count x ≤ s.refs x) :
    Running (s.create p o).refs (objs ++ [p]) (s.create p o).rt := by
  have hc := h.counted
  have hnew : p ∉ objs := by
    rw [← h.perm.mem_iff, List.mem_append]
    exact not_or.mpr ⟨hp, hfreed⟩
  have hne : ∀ x ∈ objs, x ≠ p := by
    rintro x hx rfl
    exact hnew hx
  have hmem : ∀ x ∈ o.mark_children, x ∈ objs := by
    intro x hx
    have hle := hrefs x hx
    have hpos := List.count_pos_iff.mpr hx
    exact hc.owned x (.inl (by omega))
  have hnone : o.mark_children.count p = 0 :=
    List.count_eq_zero.mpr fun hx => hnew (hmem p hx)
  have hexchange := exchange_add (s := s) [] o.mark_children hrefs
  have hself : (s.create p o).rt.children p = o.mark_children := by
    show (Function.update s.rt.obj p o p).mark_children = _
    rw [Function.update_self]
  have hother : ∀ x, x ≠ p → (s.create p o).rt.children x = s.rt.children x := fun x hx =>
    children_update_of_ne hx
  have htype : ∀ x, x ≠ p → (s.create p o).rt.type x = s.rt.type x := by
    intro x hx
    show (Function.update s.rt.obj p o x).gc_obj_type = _
    rw [Function.update_of_ne hx]
    rfl
  have hobj : ∀ x, x ≠ p → (s.create p o).rt.obj x = s.rt.obj x := by
    intro x hx
    show Function.update s.rt.obj p o x = _
    rw [Function.update_of_ne hx]
  have hcount : ∀ x, x ≠ p → (s.create p o).rt.ref_count x = s.rt.ref_count x := fun x hx =>
    Function.update_of_ne hx 1 s.rt.ref_count
  have hone : (s.create p o).rt.ref_count p = 1 := Function.update_self p 1 s.rt.ref_count
  have hrefsFrom : ∀ x, refsFrom (s.create p o).rt.children (objs ++ [p]) x =
      refsFrom s.rt.children objs x + o.mark_children.count x := by
    intro x
    rw [refsFrom_append, refsFrom_cons, refsFrom_nil, hself, Nat.add_zero,
      refsFrom_congr (fun y hy => hother y (hne y hy))]
  have hlists : (s.rt.gc_obj_list ++ [p] ++ s.rt.freed).Perm (objs ++ [p]) := by
    rw [List.append_assoc]
    exact List.perm_middle.trans ((h.perm.cons p).trans (List.perm_append_singleton p objs).symm)
  have hgone : ∀ x ∈ s.rt.freed, x ≠ p := by
    rintro x hx rfl
    exact hfreed hx
  refine ⟨⟨nodup_append_singleton hc.nodup hnew, ?_, fun x => ?_, fun x hx y hy => ?_,
    fun x hx => ?_, fun x hx => ?_, fun x hx => ?_, List.forall_mem_nil _,
    fun x hx hnot hstarted hvalue => ?_, fun x hx hnot => ⟨?_, rfl⟩, fun hphase => ?_,
    fun hcycles => ?_, fun hcycles => ?_⟩, h.phase, h.zero, fun x hx => ?_⟩
  · show (s.rt.gc_obj_list ++ [p] ++ s.rt.tmp_obj_list ++ s.rt.gc_zero_ref_count_list ++
      s.rt.freed).Perm _
    rw [h.tmp, h.zero, List.append_nil, List.append_nil]
    exact hlists
  · rw [hrefsFrom, List.count_nil, Nat.add_zero]
    by_cases hx : x = p
    · subst hx
      have hzero : refsFrom s.rt.children objs x = 0 :=
        refsFrom_eq_zero.mpr fun y hy hyx => hnew (hc.closed y hy x hyx)
      have hself : (s.create x o).refs x = 1 := Function.update_self x 1 _
      rw [hone, hself, hzero, hnone]
    · have hrest : (s.create p o).refs x = s.exchange [] o.mark_children x :=
        Function.update_of_ne hx 1 _
      have hexchange := hexchange x
      have hold := h.counted.count x
      rw [List.count_nil] at hexchange hold
      rw [hcount x hx, hrest]
      omega
  · obtain hx | hx := List.mem_append.mp hx
    · rw [hother x (hne x hx)] at hy
      exact List.mem_append_left _ (hc.closed x hx y hy)
    · rw [List.mem_singleton.mp hx, hself] at hy
      exact List.mem_append_left _ (hmem y hy)
  · by_cases hxp : x = p
    · exact List.mem_append_right _ (List.mem_singleton.mpr hxp)
    · refine List.mem_append_left _ (hc.owned x (.inl ?_))
      have hext := hx.resolve_right List.not_mem_nil
      have hrest : (s.create p o).refs x = s.refs x + [].count x - o.mark_children.count x :=
        Function.update_of_ne hxp 1 _
      rw [hrest, List.count_nil] at hext
      omega
  · obtain hx | hx := List.mem_append.mp hx
    · rw [hobj x (hne x hx)]
      exact (hc.typed x hx).congr fun y hy => htype y (hne y (hc.closed x hx y hy))
    · have hself : (s.create p o).rt.obj p = o := by
        show Function.update s.rt.obj p o p = o
        rw [Function.update_self]
      rw [List.mem_singleton.mp hx, hself]
      exact htyped.congr fun y hy => htype y (hne y (hmem y hy))
  · rw [hother x (hgone x hx), hcount x (hgone x hx)]
    exact hc.freed x hx
  · obtain hx | hx := List.mem_append.mp hx
    · rw [htype x (hne x hx)] at hvalue
      rw [hcount x (hne x hx)]
      exact hc.positive x hx hnot hstarted hvalue
    · rw [List.mem_singleton.mp hx, hone]
      exact Nat.one_ne_zero
  · obtain hx | hx := List.mem_append.mp hx
    · have hxp : x ≠ p := fun heq => hp (heq ▸ hx)
      rw [hcount x hxp]
      exact (hc.live x hx hnot).1
    · rw [List.mem_singleton.mp hx, hone]
      exact Nat.one_ne_zero
  · refine ⟨h.tmp, ?_⟩
    show ∀ x ∈ s.rt.gc_zero_ref_count_list, _
    rw [h.zero]
    exact List.forall_mem_nil _
  · exact absurd (h.phase.symm.trans hcycles) (by decide)
  · exact absurd (h.phase.symm.trans hcycles) (by decide)
  · show Function.update s.rt.mark p false x = false
    by_cases hxp : x = p
    · rw [hxp, Function.update_self]
    · rw [Function.update_of_ne hxp]
      refine h.unmarked x ((List.mem_append.mp hx).resolve_right fun hx => ?_)
      exact hxp (List.mem_singleton.mp hx)

theorem ok_dup (h : Running s.refs objs s.rt) (hp : p ∈ s.rt.gc_obj_list) :
    Running (s.dup p).refs objs (s.dup p).rt := by
  have hc := h.counted
  have hcount : ∀ x, x ≠ p → (s.dup p).rt.ref_count x = s.rt.ref_count x := fun x hx =>
    Function.update_of_ne hx _ s.rt.ref_count
  have hself : (s.dup p).rt.ref_count p = s.rt.ref_count p + 1 := Function.update_self p _ _
  have hrefs : (s.dup p).refs p = s.refs p + 1 := Function.update_self p _ _
  have hpos : ∀ x, s.rt.ref_count x ≠ 0 → (s.dup p).rt.ref_count x ≠ 0 := by
    intro x hx
    by_cases hxp : x = p
    · rw [hxp, hself]
      exact Nat.succ_ne_zero _
    · rwa [hcount x hxp]
  have hgone : ∀ x ∈ s.rt.freed, x ≠ p := by
    rintro x hx rfl
    exact (h.mem_freed.mp hx).2 hp
  refine ⟨{ hc with
    count := fun x => ?_
    owned := fun x hx => ?_
    freed := fun x hx => ?_
    started := List.forall_mem_nil _
    positive := fun x hx hnot hstarted hvalue => hpos x (hc.positive x hx hnot hstarted hvalue)
    live := fun x hx hnot => ⟨hpos x (hc.live x hx hnot).1, rfl⟩
    waiting := fun hphase => ⟨h.tmp, ?_⟩
    rooted := fun hcycles => absurd (h.phase.symm.trans hcycles) (by decide) }, h.phase, h.zero,
    h.unmarked⟩
  · by_cases hx : x = p
    · have hold := hc.count x
      rw [hx] at hold ⊢
      rw [hself, hrefs, hold]
      show _ = s.refs p + 1 + refsFrom s.rt.children objs p + _
      omega
    · have hrest : (s.dup p).refs x = s.refs x := Function.update_of_ne hx _ _
      rw [hcount x hx, hrest]
      exact hc.count x
  · by_cases hxp : x = p
    · exact hxp ▸ hc.mem_objs_of_gc hp
    · have hrest : (s.dup p).refs x = s.refs x := Function.update_of_ne hxp _ _
      rw [hrest] at hx
      exact hc.owned x hx
  · rw [hcount x (hgone x hx)]
    exact hc.freed x hx
  · show ∀ x ∈ s.rt.gc_zero_ref_count_list, _
    rw [h.zero]
    exact List.forall_mem_nil _

theorem ok_store (h : Running s.refs objs s.rt) (hp : p ∈ s.rt.gc_obj_list)
    (hsame : o.gc_obj_type = s.rt.type p) (htyped : o.Typed s.rt.type)
    (hrefs : ∀ x ∈ o.mark_children,
      o.mark_children.count x ≤ s.refs x + (s.rt.children p).count x) :
    Running (s.store p o).refs objs (s.store p o).rt := by
  have hc := h.counted
  have hp' : p ∈ objs := hc.mem_objs_of_gc hp
  have hself : (s.store p o).rt.children p = o.mark_children := by
    show (Function.update s.rt.obj p o p).mark_children = _
    rw [Function.update_self]
  have hother : ∀ x, x ≠ p → (s.store p o).rt.children x = s.rt.children x := fun x hx =>
    children_update_of_ne hx
  have htype : (s.store p o).rt.type = s.rt.type := by
    funext x
    show (Function.update s.rt.obj p o x).gc_obj_type = s.rt.type x
    by_cases hx : x = p
    · rw [hx, Function.update_self, hsame]
    · rw [Function.update_of_ne hx]
      rfl
  have hexchange := exchange_add (s := s) (s.rt.children p) o.mark_children hrefs
  have hmem : ∀ x ∈ o.mark_children, x ∈ objs := by
    intro x hx
    have hle := hrefs x hx
    have hpos := List.count_pos_iff.mpr hx
    by_cases hold : x ∈ s.rt.children p
    · exact hc.closed p hp' x hold
    · have hzero := List.count_eq_zero.mpr hold
      exact hc.owned x (.inl (by omega))
  have hgone : ∀ x ∈ s.rt.freed, x ≠ p := by
    rintro x hx rfl
    exact (h.mem_freed.mp hx).2 hp
  refine ⟨⟨hc.nodup, hc.perm, fun x => ?_, fun x hx y hy => ?_, fun x hx => ?_, fun x hx => ?_,
    fun x hx => ?_, List.forall_mem_nil _, ?_, fun x hx hnot => ⟨(hc.live x hx hnot).1, rfl⟩,
    fun hphase => ⟨h.tmp, ?_⟩, fun hcycles => ?_, fun hcycles => ?_⟩, h.phase, h.zero, h.unmarked⟩
  · have hreplace := refsFrom_replace (g := (s.store p o).rt.children) hc.nodup hp'
      (fun y _ hy => hother y hy) x
    have hexchange := hexchange x
    have hold : s.rt.ref_count x = _ := hc.count x
    rw [hself] at hreplace
    rw [List.count_nil] at hold ⊢
    show s.rt.ref_count x = s.exchange (s.rt.children p) o.mark_children x + _ + 0
    omega
  · by_cases hxp : x = p
    · rw [hxp, hself] at hy
      exact hmem y hy
    · rw [hother x hxp] at hy
      exact hc.closed x hx y hy
  · have hext : s.refs x + (s.rt.children p).count x - o.mark_children.count x ≠ 0 :=
      hx.resolve_right List.not_mem_nil
    by_cases hold : x ∈ s.rt.children p
    · exact hc.closed p hp' x hold
    · have hzero := List.count_eq_zero.mpr hold
      exact hc.owned x (.inl (by omega))
  · rw [htype]
    by_cases hxp : x = p
    · have hself : (s.store p o).rt.obj p = o := by
        show Function.update s.rt.obj p o p = o
        rw [Function.update_self]
      rwa [hxp, hself]
    · have hrest : (s.store p o).rt.obj x = s.rt.obj x := by
        show Function.update s.rt.obj p o x = _
        rw [Function.update_of_ne hxp]
      rw [hrest]
      exact hc.typed x hx
  · rw [hother x (hgone x hx)]
    exact hc.freed x hx
  · rw [htype]
    exact hc.positive
  · show ∀ x ∈ s.rt.gc_zero_ref_count_list, _
    rw [h.zero]
    exact List.forall_mem_nil _
  · exact absurd (h.phase.symm.trans hcycles) (by decide)
  · exact absurd (h.phase.symm.trans hcycles) (by decide)

end Steps

/-! ## Whole runs -/

/-- Each action the program may take is possible, and leaves a heap in which all is right. -/
theorem ok_step (s : Heap α) (a : Action α) (h : s.Ok) (ha : Allowed s a) :
    ∃ s' events, (heap α).step s a = some (s', events) ∧ s'.Ok := by
  obtain ⟨objs, h⟩ := h
  cases a with
  | create p o =>
    obtain ⟨hp, hfreed, htyped, hrefs⟩ := ha
    exact ⟨_, _, rfl, _, ok_create h hp hfreed htyped hrefs⟩
  | dup p => exact ⟨_, _, rfl, _, ok_dup h ha⟩
  | store p o =>
    obtain ⟨hp, hsame, htyped, hrefs⟩ := ha
    exact ⟨_, _, rfl, _, ok_store h hp hsame htyped hrefs⟩
  | free p =>
    obtain ⟨rt', hrun, hrunning, -⟩ := JS_FreeValueRT_keeps h ha
    exact ⟨_, _, congrArg (Option.map _) hrun, objs, hrunning⟩
  | collect =>
    obtain ⟨rt', hrun, hrunning, -⟩ := JS_RunGC_spec h
    exact ⟨_, _, congrArg (Option.map _) hrun, objs, hrunning⟩

/-- **In every run** of a program that lets go only of references it has, no assertion fails; each
    count is the references the program and the objects have; what the program or an object refers
    to has not been freed; and nothing is freed twice. -/
theorem run_heap {as : List (Action α)} (h : (heap α).Meets Allowed (heap α).init as) :
    ∃ s events, (heap α).run (heap α).init as = some (s, events) ∧
      (∀ x, s.rt.ref_count x = s.refs x + refsFrom s.rt.children s.rt.gc_obj_list x) ∧
      (∀ x, s.refs x ≠ 0 → x ∈ s.rt.gc_obj_list) ∧
      (∀ x ∈ s.rt.gc_obj_list, ∀ y ∈ s.rt.children x, y ∈ s.rt.gc_obj_list) ∧
      (∀ x ∈ s.rt.gc_obj_list, s.rt.ref_count x ≠ 0) ∧
      (s.rt.gc_obj_list ++ s.rt.freed).Nodup := by
  obtain ⟨⟨s, events⟩, hrun, objs, hok⟩ :=
    (heap α).run_progress ok_step as _ ok_init h
  exact ⟨s, events, hrun, hok.count, fun x hx => hok.mem_of_ext hx,
    fun x hx y hy => hok.closed hx hy,
    fun x hx => (hok.counted.live x hx List.not_mem_nil).1,
    hok.perm.nodup_iff.mpr hok.counted.nodup⟩

/-- A shape, an object of it that comes to refer to itself, and a collection after the program has
    let go of both. -/
def cycleRun : List (Action ℕ) :=
  [.create 0 (.shape none), .create 1 (.js_object (some 0) [] (.other [] none)), .dup 1,
    .store 1 (.js_object (some 0) [.value (some 1)] (.other [] none)), .free 1, .collect]

theorem run_heap_cycle :
    ∃ s events, (heap ℕ).run (heap ℕ).init cycleRun = some (s, events) ∧
      (∀ x, s.rt.ref_count x = s.refs x + refsFrom s.rt.children s.rt.gc_obj_list x) ∧
      (∀ x, s.refs x ≠ 0 → x ∈ s.rt.gc_obj_list) ∧
      (∀ x ∈ s.rt.gc_obj_list, ∀ y ∈ s.rt.children x, y ∈ s.rt.gc_obj_list) ∧
      (∀ x ∈ s.rt.gc_obj_list, s.rt.ref_count x ≠ 0) ∧
      (s.rt.gc_obj_list ++ s.rt.freed).Nodup :=
  run_heap (by decide +kernel)

end JSEngine.Collector
