import JSEngine.Common.References

/-!
# Objects and their reference counts

Every object that can be part of a cycle has a `JSGCObjectHeader` and is on a list of the runtime
(quickjs.c:5522-5548). An object is freed when its reference count reaches zero
(`__JS_FreeValueRT`, lines 5441-5515), or by the cycle collector (`JS_RunGC`, lines 5766-5776),
which takes away all references between objects to see which counts are left.

`assert`s of the source are steps that fail. So are loops that would run on: they have as much fuel
as there are objects.

* `releases_perm`: what an object lets go of when it is freed is what it is marked with.
-/

namespace JSEngine.Collector

open JSEngine.Common.References

variable {α : Type*}

/-! ## Objects -/

/-- `JSGCObjectTypeEnum`. -/
inductive JSGCObjectTypeEnum
  | js_object
  | function_bytecode
  | shape
  | var_ref
  | async_function
  | js_context
  deriving DecidableEq, Repr

/-- The objects that a `JSValue` can hold. -/
def JSGCObjectTypeEnum.IsValue : JSGCObjectTypeEnum → Prop
  | js_object | function_bytecode => True
  | shape | var_ref | async_function | js_context => False

instance : ∀ t : JSGCObjectTypeEnum, Decidable t.IsValue
  | .js_object | .function_bytecode => isTrue trivial
  | .shape | .var_ref | .async_function | .js_context => isFalse id

/-- How far the freeing of an object goes on at once: a value waits on a list, a context has a
    shape, the others have only values. -/
def JSGCObjectTypeEnum.depth : JSGCObjectTypeEnum → ℕ
  | js_object | function_bytecode => 0
  | shape | var_ref | async_function => 1
  | js_context => 2

/-- A `JSValue`, as far as the collector sees it: it refers to an object, or it does not. -/
abbrev JSValue (α : Type*) := Option α

/-- A `JSProperty`, with what its `JSShapeProperty` says of it. A deleted property is the value
    `JS_UNDEFINED`; a variable on the stack is no object of the collector. -/
inductive JSProperty (α : Type*)
  | value (value : JSValue α)
  | getset (getter setter : Option α)
  | var_ref (var_ref : Option α)
  | autoinit (realm : α)
  deriving DecidableEq, Repr

/-- The part of a `JSObject` that depends on its class. The classes that are not named have the
    references their `gc_mark` and finalizer go over. -/
inductive ClassData (α : Type*)
  | array (values : List (JSValue α))
  | object_data (value : JSValue α)
  | cfunc (realm : Option α)
  | func (home_object function_bytecode : Option α) (var_refs : List (Option α))
  | bound_function (func_obj this_val : JSValue α) (argv : List (JSValue α))
  | other (values : List (JSValue α)) (async : Option α)
  deriving DecidableEq, Repr

/-- An object of the collector. An async function that is not active has no frame. -/
inductive JSGCObject (α : Type*)
  | js_object (shape : Option α) (prop : List (JSProperty α)) (u : ClassData α)
  | function_bytecode (cpool : List (JSValue α)) (realm : Option α)
  | shape (proto : Option α)
  | var_ref (value : JSValue α)
  | async_function (frame : Option (JSValue α × JSValue α × List (JSValue α)))
      (resolving_funcs : JSValue α × JSValue α)
  | js_context (values : List (JSValue α)) (array_shape : Option α)
  deriving DecidableEq, Repr

def JSGCObject.gc_obj_type : JSGCObject α → JSGCObjectTypeEnum
  | js_object .. => .js_object
  | function_bytecode .. => .function_bytecode
  | shape .. => .shape
  | var_ref .. => .var_ref
  | async_function .. => .async_function
  | js_context .. => .js_context

/-- What marking a property goes to (lines 5566-5587). -/
def JSProperty.mark : JSProperty α → List α
  | value v => v.toList
  | getset getter setter => getter.toList ++ setter.toList
  | var_ref r => r.toList
  | autoinit realm => [realm]

/-- `gc_mark` of the class (lines 5225-5347). -/
def ClassData.gc_mark : ClassData α → List α
  | array values => values.reduceOption
  | object_data v => v.toList
  | cfunc realm => realm.toList
  | func home_object none _ => home_object.toList
  | func home_object (some b) var_refs => home_object.toList ++ var_refs.reduceOption ++ [b]
  | bound_function func_obj this_val argv =>
    func_obj.toList ++ this_val.toList ++ argv.reduceOption
  | other values async => values.reduceOption ++ async.toList

/-- `mark_children` (lines 5553-5646): the objects that `mark_func` is called for, in turn. -/
def JSGCObject.mark_children : JSGCObject α → List α
  | js_object sh prop u => sh.toList ++ prop.flatMap JSProperty.mark ++ u.gc_mark
  | function_bytecode cpool realm => cpool.reduceOption ++ realm.toList
  | shape proto => proto.toList
  | var_ref v => v.toList
  | async_function frame resolving_funcs =>
    frame.elim [] (fun f => f.1.toList ++ f.2.1.toList ++ f.2.2.reduceOption) ++
      resolving_funcs.1.toList ++ resolving_funcs.2.toList
  | js_context values array_shape => values.reduceOption ++ array_shape.toList

/-- What an object lets go of when it is freed, in turn: `free_object` (lines 5366-5412),
    `free_function_bytecode` (lines 32205-32249), `js_free_shape0` (lines 4397-4415),
    `free_var_ref` (lines 5203-5216), `js_async_function_free0` (lines 19070-19077) and
    `JS_FreeContext` (lines 2297-2322). -/
def JSGCObject.releases : JSGCObject α → List α
  | js_object sh prop u => prop.flatMap JSProperty.mark ++ sh.toList ++ u.gc_mark
  | function_bytecode cpool realm => cpool.reduceOption ++ realm.toList
  | shape proto => proto.toList
  | var_ref v => v.toList
  | async_function frame resolving_funcs =>
    frame.elim [] (fun f => f.2.2.reduceOption ++ f.1.toList ++ f.2.1.toList) ++
      resolving_funcs.1.toList ++ resolving_funcs.2.toList
  | js_context values array_shape => values.reduceOption ++ array_shape.toList

/-- The object after that. -/
def JSGCObject.emptied : JSGCObject α → JSGCObject α
  | js_object .. => js_object none [] (.other [] none)
  | function_bytecode .. => function_bytecode [] none
  | shape .. => shape none
  | var_ref .. => var_ref none
  | async_function .. => async_function none (none, none)
  | js_context .. => js_context [] none

/-- **What an object lets go of** is what it is marked with. -/
theorem releases_perm (o : JSGCObject α) : o.releases.Perm o.mark_children := by
  cases o with
  | js_object sh prop u => exact List.perm_append_comm.append_right _
  | async_function frame resolving_funcs =>
    cases frame with
    | none => exact List.Perm.refl _
    | some f =>
      refine (List.Perm.append_right _ ?_).append_right _
      rw [Option.elim_some, Option.elim_some, List.append_assoc]
      exact List.perm_append_comm
  | function_bytecode cpool realm => exact List.Perm.refl _
  | shape proto => exact List.Perm.refl _
  | var_ref v => exact List.Perm.refl _
  | js_context values array_shape => exact List.Perm.refl _

@[simp] theorem mark_children_emptied (o : JSGCObject α) : o.emptied.mark_children = [] := by
  cases o <;> rfl

@[simp] theorem gc_obj_type_emptied (o : JSGCObject α) :
    o.emptied.gc_obj_type = o.gc_obj_type := by
  cases o <;> rfl

/-- The references of an object are to objects of the types they are declared with: what is not a
    value can be freed at once, and is nearer to the values than the object. -/
def JSGCObject.Typed (type : α → JSGCObjectTypeEnum) (o : JSGCObject α) : Prop :=
  o.gc_obj_type.IsValue ∨
    ∀ x ∈ o.mark_children, (type x).depth < o.gc_obj_type.depth

instance (type : α → JSGCObjectTypeEnum) (o : JSGCObject α) : Decidable (o.Typed type) :=
  inferInstanceAs (Decidable (_ ∨ _))

/-! ## The runtime -/

inductive JSGCPhaseEnum
  | NONE
  | DECREF
  | REMOVE_CYCLES
  deriving DecidableEq, Repr

/-- What a `JSRuntime` has for its objects. An object is on one of three lists until its memory is
    given back. -/
structure JSRuntime (α : Type*) where
  gc_obj_list : List α
  tmp_obj_list : List α
  gc_zero_ref_count_list : List α
  gc_phase : JSGCPhaseEnum
  ref_count : α → ℕ
  mark : α → Bool
  obj : α → JSGCObject α
  freed : List α

/-- `el->next` on a list. -/
def next [DecidableEq α] : List α → α → Option α
  | [], _ => none
  | a :: l, x => if a = x then l.head? else next l x

namespace JSRuntime

variable [DecidableEq α]

/-- `list_del`: an object is on one list. -/
def list_del (rt : JSRuntime α) (p : α) : JSRuntime α :=
  { rt with
    gc_obj_list := rt.gc_obj_list.erase p
    tmp_obj_list := rt.tmp_obj_list.erase p
    gc_zero_ref_count_list := rt.gc_zero_ref_count_list.erase p }

/-- `list_del` and `list_add` to `gc_zero_ref_count_list`. -/
def move_zero (rt : JSRuntime α) (p : α) : JSRuntime α :=
  { rt.list_del p with gc_zero_ref_count_list := p :: rt.gc_zero_ref_count_list.erase p }

/-- `list_del` and `list_add_tail` to `gc_zero_ref_count_list`. -/
def move_zero_tail (rt : JSRuntime α) (p : α) : JSRuntime α :=
  { rt.list_del p with gc_zero_ref_count_list := rt.gc_zero_ref_count_list.erase p ++ [p] }

/-- `list_del` and `list_add_tail` to `tmp_obj_list`. -/
def move_tmp (rt : JSRuntime α) (p : α) : JSRuntime α :=
  { rt.list_del p with tmp_obj_list := rt.tmp_obj_list.erase p ++ [p] }

/-- `list_del` and `list_add_tail` to `gc_obj_list`. -/
def move_gc (rt : JSRuntime α) (p : α) : JSRuntime α :=
  { rt.list_del p with gc_obj_list := rt.gc_obj_list.erase p ++ [p] }

/-- `remove_gc_object` and `js_free_rt`. -/
def free (rt : JSRuntime α) (p : α) : JSRuntime α :=
  { rt.list_del p with freed := rt.freed ++ [p] }

def set_ref_count (rt : JSRuntime α) (p : α) (n : ℕ) : JSRuntime α :=
  { rt with ref_count := Function.update rt.ref_count p n }

def set_mark (rt : JSRuntime α) (p : α) (m : Bool) : JSRuntime α :=
  { rt with mark := Function.update rt.mark p m }

/-- The fields are taken out of an object that is being freed. -/
def take (rt : JSRuntime α) (p : α) : JSRuntime α :=
  { rt with obj := Function.update rt.obj p (rt.obj p).emptied }

end JSRuntime

variable [DecidableEq α]

/-! ## Freeing -/

/-- A list of references is let go of, in turn. -/
def releaseAll (unref : JSRuntime α → α → Option (JSRuntime α)) :
    JSRuntime α → List α → Option (JSRuntime α)
  | rt, [] => some rt
  | rt, p :: ps => (unref rt p).bind fun rt => releaseAll unref rt ps

/-- One reference is let go of: `JS_FreeValueRT` and `__JS_FreeValueRT` (lines 5441-5490) for
    values, `js_free_shape`, `free_var_ref`, `js_async_function_free` and `JS_FreeContext` for the
    others. Where no object is being freed yet, `free_zero_refcount` starts. -/
def unref (free_zero_refcount : JSRuntime α → Option (JSRuntime α)) :
    ℕ → JSRuntime α → α → Option (JSRuntime α)
  | 0, _, _ => none
  | n + 1, rt, p =>
    if rt.ref_count p = 0 then none
    else
      let rt := rt.set_ref_count p (rt.ref_count p - 1)
      if rt.ref_count p ≠ 0 then some rt
      else if (rt.obj p).gc_obj_type.IsValue then
        if rt.gc_phase = .REMOVE_CYCLES then some rt
        else if rt.gc_phase = .NONE then free_zero_refcount (rt.move_zero p)
        else some (rt.move_zero p)
      else
        (releaseAll (unref free_zero_refcount n) (rt.take p) (rt.obj p).releases).map
          fun rt => rt.free p

/-- `free_gc_object` (lines 5414-5426). A value that others still refer to is kept until the
    cycles are gone. -/
def free_gc_object (rt : JSRuntime α) (p : α) : Option (JSRuntime α) :=
  (releaseAll (unref (fun _ => none) 3) (rt.take p) (rt.obj p).releases).map fun rt =>
    if rt.gc_phase = .REMOVE_CYCLES ∧ rt.ref_count p ≠ 0 then rt.move_zero_tail p
    else rt.free p

/-- The loop of `free_zero_refcount` (lines 5432-5438). -/
def freeZeroLoop : ℕ → JSRuntime α → Option (JSRuntime α)
  | 0, _ => none
  | n + 1, rt =>
    match rt.gc_zero_ref_count_list with
    | [] => some rt
    | p :: _ =>
      if rt.ref_count p ≠ 0 then none else (free_gc_object rt p).bind (freeZeroLoop n)

/-- `free_zero_refcount` (lines 5425-5440). -/
def free_zero_refcount (rt : JSRuntime α) : Option (JSRuntime α) :=
  (freeZeroLoop (rt.gc_obj_list.length + rt.gc_zero_ref_count_list.length + 1)
    { rt with gc_phase := .DECREF }).map fun rt => { rt with gc_phase := .NONE }

/-- A reference is let go of by the program. -/
def JS_FreeValueRT (rt : JSRuntime α) (p : α) : Option (JSRuntime α) :=
  unref free_zero_refcount 3 rt p

/-! ## Looking for cycles -/

/-- `gc_decref_child` (lines 5648-5656). -/
def gc_decref_child (rt : JSRuntime α) (p : α) : Option (JSRuntime α) :=
  if rt.ref_count p = 0 then none
  else
    let rt := rt.set_ref_count p (rt.ref_count p - 1)
    if rt.ref_count p = 0 ∧ rt.mark p = true then some (rt.move_tmp p) else some rt

/-- The loop of `gc_decref` (lines 5668-5677), at `el`; `el1` is read before its body. -/
def gcDecrefLoop : ℕ → Option α → JSRuntime α → Option (JSRuntime α)
  | _, none, rt => some rt
  | 0, some _, _ => none
  | n + 1, some p, rt =>
    if p ∉ rt.gc_obj_list ∨ rt.mark p = true then none
    else
      let el1 := next rt.gc_obj_list p
      (releaseAll gc_decref_child rt (rt.obj p).mark_children).bind fun rt =>
        let rt := rt.set_mark p true
        gcDecrefLoop n el1 (if rt.ref_count p = 0 then rt.move_tmp p else rt)

/-- `gc_decref` (lines 5658-5678). -/
def gc_decref (rt : JSRuntime α) : Option (JSRuntime α) :=
  gcDecrefLoop rt.gc_obj_list.length rt.gc_obj_list.head? { rt with tmp_obj_list := [] }

/-- `gc_scan_incref_child` (lines 5680-5690). -/
def gc_scan_incref_child (rt : JSRuntime α) (p : α) : JSRuntime α :=
  let rt := rt.set_ref_count p (rt.ref_count p + 1)
  if rt.ref_count p = 1 then (rt.move_gc p).set_mark p false else rt

/-- `gc_scan_incref_child2` (lines 5692-5695). -/
def gc_scan_incref_child2 (rt : JSRuntime α) (p : α) : JSRuntime α :=
  rt.set_ref_count p (rt.ref_count p + 1)

/-- The first loop of `gc_scan` (lines 5703-5708), at `el`. The list grows meanwhile. -/
def gcScanLoop : ℕ → Option α → JSRuntime α → Option (JSRuntime α)
  | _, none, rt => some rt
  | 0, some _, _ => none
  | n + 1, some p, rt =>
    if rt.ref_count p = 0 then none
    else
      let rt := (rt.obj p).mark_children.foldl gc_scan_incref_child (rt.set_mark p false)
      gcScanLoop n (next rt.gc_obj_list p) rt

/-- `gc_scan` (lines 5697-5715). -/
def gc_scan (rt : JSRuntime α) : Option (JSRuntime α) :=
  (gcScanLoop (rt.gc_obj_list.length + rt.tmp_obj_list.length) rt.gc_obj_list.head? rt).map
    fun rt => rt.tmp_obj_list.foldl
      (fun rt p => (rt.obj p).mark_children.foldl gc_scan_incref_child2 rt) rt

/-- The loop of `gc_free_cycles` (lines 5727-5753). -/
def freeCyclesLoop : ℕ → JSRuntime α → Option (JSRuntime α)
  | 0, _ => none
  | n + 1, rt =>
    match rt.tmp_obj_list with
    | [] => some rt
    | p :: _ =>
      if (rt.obj p).gc_obj_type.IsValue then (free_gc_object rt p).bind (freeCyclesLoop n)
      else freeCyclesLoop n (rt.move_zero_tail p)

/-- `gc_free_cycles` (lines 5717-5764). -/
def gc_free_cycles (rt : JSRuntime α) : Option (JSRuntime α) :=
  (freeCyclesLoop (rt.tmp_obj_list.length + 1) { rt with gc_phase := .REMOVE_CYCLES }).bind
    fun rt =>
      if ∀ p ∈ rt.gc_zero_ref_count_list, (rt.obj p).gc_obj_type.IsValue then
        some { rt with
          gc_phase := .NONE
          freed := rt.freed ++ rt.gc_zero_ref_count_list
          gc_zero_ref_count_list := [] }
      else none

/-- `JS_RunGC` (lines 5766-5776). -/
def JS_RunGC (rt : JSRuntime α) : Option (JSRuntime α) :=
  (gc_decref rt).bind fun rt => (gc_scan rt).bind gc_free_cycles

end JSEngine.Collector
