import Mathlib.Algebra.Order.Group.Multiset
import Mathlib.Tactic.Abel

/-!
# Ownership

A computation acquires resources of certain kinds and releases them. The ledger
holds what is owned, each resource under a number of its own, so releasing one
that is not owned, or a second time, is a fault.

`Spec pre m own d` is a triple with the frame in it: a computation that is given
the resources `pre` faults on none; where it returns `a` it has turned them into
`own a` and resources that nobody releases any more, of the kinds `d`: those are
leaked. The rules follow the ways a resource is treated: it is passed on
(`Spec.bind`), held for the time of a body (`Spec.hold`), or dropped
(`Spec.drop`).
-/

namespace JSEngine.Common

/-- Why a computation does not return: the process ends, or a resource is
    released that is not owned. -/
inductive Fault
  | crash
  | notOwned
  deriving DecidableEq

/-- The resources that are owned, by kind and number, and the next number. -/
structure Owned (κ : Type) where
  next : ℕ
  resources : Multiset (κ × ℕ)

/-- The number of resources of a kind that are owned. -/
def Owned.count {κ : Type} [DecidableEq κ] (s : Owned κ) (k : κ) : ℕ :=
  (s.resources.map Prod.fst).count k

/-- Computations over a ledger. -/
abbrev Own (κ : Type) := StateT (Owned κ) (Except Fault)

namespace Own

variable {κ α β ι : Type} [DecidableEq κ]

/-- Come to own a resource; the result is its number. -/
def acquire (k : κ) : Own κ ℕ := fun s =>
  .ok (s.next, { next := s.next + 1, resources := (k, s.next) ::ₘ s.resources })

/-- Release a resource, or hand it on. -/
def release (k : κ) (n : ℕ) : Own κ Unit := fun s =>
  if (k, n) ∈ s.resources then .ok ((), { s with resources := s.resources.erase (k, n) })
  else .error .notOwned

/-- The process ends. -/
def crash : Own κ α := fun _ => .error .crash

/-- Come to own a resource, or get something that need not be released. -/
def fresh (k : κ) (counted : Bool) : Own κ (Option ℕ) :=
  if counted then some <$> acquire k else pure none

/-- Release what need be released. -/
def free (k : κ) : Option ℕ → Own κ Unit
  | none => pure ()
  | some n => release k n

/-- A scoped holder: what `m` returns is released when the scope ends. -/
def hold (k : κ) (m : Own κ (Option ℕ)) (body : Option ℕ → Own κ α) : Own κ α := do
  let v ← m
  let a ← body v
  free k v
  return a

/-! ## Triples -/

/-- The resource behind a handle. -/
def handle (k : κ) : Option ℕ → Multiset (κ × ℕ)
  | none => 0
  | some n => {(k, n)}

/-- Given `pre`, the computation releases only what it owns, and where it returns
    `a` it owns `own a` and has leaked resources of the kinds `d`. -/
def Spec (pre : Multiset (κ × ℕ)) (m : Own κ α) (own : α → Multiset (κ × ℕ))
    (d : Multiset κ) : Prop :=
  ∀ s frame, s.resources = pre + frame → m.run s ≠ .error .notOwned ∧
    ∀ a s', m.run s = .ok (a, s') →
      ∃ leaked, s'.resources = own a + leaked + frame ∧ leaked.map Prod.fst = d

variable {pre pre' rest : Multiset (κ × ℕ)} {m : Own κ α} {own own' : α → Multiset (κ × ℕ)}
  {d d' e : Multiset κ}

omit [DecidableEq κ] in
theorem Spec.congr (h : Spec pre m own d) (hpre : pre = pre') (hown : ∀ a, own a = own' a)
    (hd : d = d') : Spec pre' m own' d' := by
  obtain rfl : own = own' := funext hown
  exact hpre ▸ hd ▸ h

omit [DecidableEq κ] in
theorem Spec.of_eq (h : Spec pre m own d) (hd : d = d') : Spec pre m own d' := hd ▸ h

omit [DecidableEq κ] in
/-- A value is returned with what it owns. -/
theorem Spec.pure (own : α → Multiset (κ × ℕ)) (a : α) : Spec (own a) (pure a) own 0 := by
  intro s frame hs
  refine ⟨fun h => (nomatch h), fun b s' h => ?_⟩
  obtain ⟨rfl, rfl⟩ := Prod.mk.inj (Except.ok.inj h)
  exact ⟨0, by rw [hs, add_zero], rfl⟩

omit [DecidableEq κ] in
/-- A crash meets every specification. -/
theorem Spec.crash : Spec pre (crash : Own κ α) own d := by
  intro s frame _
  refine ⟨fun h => ?_, fun a s' h => (nomatch h)⟩
  exact absurd (Except.error.inj h) (by decide)

omit [DecidableEq κ] in
theorem Spec.acquire (k : κ) : Spec 0 (acquire k) (fun n => {(k, n)}) 0 := by
  intro s frame hs
  refine ⟨fun h => (nomatch h), fun n s' h => ⟨0, ?_, rfl⟩⟩
  obtain ⟨rfl, rfl⟩ := Prod.mk.inj (Except.ok.inj h)
  show (k, s.next) ::ₘ s.resources = _
  rw [hs, zero_add, add_zero, Multiset.singleton_add]

theorem Spec.release (k : κ) (n : ℕ) : Spec {(k, n)} (release k n) (fun _ => 0) 0 := by
  intro s frame hs
  have hmem : (k, n) ∈ s.resources := by
    rw [hs]
    exact Multiset.mem_add.mpr (Or.inl (Multiset.mem_singleton_self _))
  have hrun : (Own.release k n).run s =
      .ok ((), { s with resources := s.resources.erase (k, n) }) := if_pos hmem
  rw [hrun]
  refine ⟨fun h => (nomatch h), fun a s' h => ⟨0, ?_, rfl⟩⟩
  obtain ⟨-, rfl⟩ := Prod.mk.inj (Except.ok.inj h)
  show s.resources.erase (k, n) = _
  rw [hs, Multiset.singleton_add, Multiset.erase_cons_head, zero_add, zero_add]

omit [DecidableEq κ] in
/-- What is not mentioned stays as it is. -/
theorem Spec.frame (h : Spec pre m own d) (rest : Multiset (κ × ℕ)) :
    Spec (pre + rest) m (fun a => own a + rest) d := by
  intro s frame hs
  obtain ⟨hok, hret⟩ := h s (rest + frame) (by rw [hs, add_assoc])
  refine ⟨hok, fun a s' hrun => ?_⟩
  obtain ⟨leaked, hs', hd⟩ := hret a s' hrun
  refine ⟨leaked, ?_, hd⟩
  show _ = own a + rest + leaked + frame
  rw [hs']
  abel

omit [DecidableEq κ] in
/-- What `m` returns, with its resources, is passed on. -/
theorem Spec.bind {f : α → Own κ β} {own' : β → Multiset (κ × ℕ)} (hm : Spec pre m own d)
    (hf : ∀ a, Spec (own a) (f a) own' e) : Spec pre (m >>= f) own' (d + e) := by
  intro s frame hs
  obtain ⟨hok, hret⟩ := hm s frame hs
  rw [StateT.run_bind]
  match hrun : m.run s with
  | .error .notOwned => exact absurd hrun hok
  | .error .crash =>
    refine ⟨fun h => ?_, fun b s'' h => (nomatch h)⟩
    exact absurd (Except.error.inj h) (by decide)
  | .ok (a, s') =>
    obtain ⟨leaked, hs', hd⟩ := hret a s' hrun
    obtain ⟨hok', hret'⟩ := hf a s' (leaked + frame) (by rw [hs', add_assoc])
    refine ⟨hok', fun b s'' hrun' => ?_⟩
    obtain ⟨leaked', hs'', he⟩ := hret' b s'' hrun'
    refine ⟨leaked + leaked', ?_, by rw [Multiset.map_add, hd, he]⟩
    rw [hs'']
    abel

omit [DecidableEq κ] in
/-- The same beside resources that only the continuation uses. -/
theorem Spec.bind_frame {r : Multiset (κ × ℕ)} {f : α → Own κ β} {own' : β → Multiset (κ × ℕ)}
    (hm : Spec pre m own d) (hf : ∀ a, Spec (own a + r) (f a) own' e) :
    Spec (pre + r) (m >>= f) own' (d + e) :=
  (hm.frame r).bind hf

omit [DecidableEq κ] in
/-- Resources that are not passed on are leaked. -/
theorem Spec.leak (h : Spec pre m (fun a => own a + rest) d) :
    Spec pre m own (d + rest.map Prod.fst) := by
  intro s frame hs
  obtain ⟨hok, hret⟩ := h s frame hs
  refine ⟨hok, fun a s' hrun => ?_⟩
  obtain ⟨leaked, hs', hd⟩ := hret a s' hrun
  refine ⟨leaked + rest, ?_, by rw [Multiset.map_add, hd]⟩
  have hs' : s'.resources = own a + rest + leaked + frame := hs'
  rw [hs']
  abel

omit [DecidableEq κ] in
/-- Resources that a computation is given and does not use are leaked. -/
theorem Spec.abandon (h : Spec pre m own d) (rest : Multiset (κ × ℕ)) :
    Spec (rest + pre) m own (d + rest.map Prod.fst) :=
  ((h.frame rest).congr (add_comm _ _) (fun _ => rfl) rfl).leak

omit [DecidableEq κ] in
/-- A resource that is acquired and dropped. -/
theorem Spec.drop {k : κ} {m : Own κ ℕ} {f : ℕ → Own κ β} {own' : β → Multiset (κ × ℕ)}
    (hm : Spec 0 m (fun n => {(k, n)}) d) (hf : ∀ n, Spec pre (f n) own' e) :
    Spec pre (m >>= f) own' (d + (e + {k})) :=
  (hm.bind_frame fun n => ((hf n).abandon {(k, n)}).of_eq (by rw [Multiset.map_singleton])).congr
    (zero_add _) (fun _ => rfl) rfl

/-! ## Handles -/

omit [DecidableEq κ] in
theorem Spec.fresh (k : κ) (counted : Bool) : Spec 0 (fresh k counted) (handle k) 0 := by
  cases counted with
  | false => exact Spec.pure (handle k) none
  | true =>
    exact ((Spec.acquire k).bind fun n => Spec.pure (handle k) (some n)).of_eq (add_zero 0)

theorem Spec.free (k : κ) (v : Option ℕ) : Spec (handle k v) (free k v) (fun _ => 0) 0 := by
  cases v with
  | none => exact Spec.pure (fun _ => 0) ()
  | some n => exact Spec.release k n

omit [DecidableEq κ] in
/-- What `fresh` gives and nobody releases. -/
theorem Spec.drop_fresh {k : κ} {counted : Bool} {f : Option ℕ → Own κ β}
    {own' : β → Multiset (κ × ℕ)} (hf : ∀ v, Spec pre (f v) own' e) :
    Spec pre (Own.fresh k counted >>= f) own' (e + if counted then {k} else 0) := by
  cases counted with
  | false => exact (hf none).of_eq (add_zero e).symm
  | true =>
    have := (Spec.acquire k).drop fun n => hf (some n)
    simpa [Own.fresh] using this

/-- A holder releases what it holds, whatever its body does. -/
theorem Spec.hold {k : κ} {m : Own κ (Option ℕ)} {body : Option ℕ → Own κ α}
    (hm : Spec 0 m (handle k) d) (hbody : ∀ v, Spec pre (body v) own e) :
    Spec pre (hold k m body) own (d + e) := by
  refine ((hm.bind_frame (r := pre) fun v => ?_).congr (zero_add pre) (fun _ => rfl) rfl)
  have hb := ((hbody v).frame (handle k v)).congr (add_comm _ _) (fun _ => rfl) rfl
  refine (hb.bind fun a => ?_).of_eq (add_zero e)
  have hfree := (Spec.free k v).bind_frame (r := own a) fun _ =>
    (Spec.pure own a).congr (zero_add _).symm (fun _ => rfl) rfl
  exact (hfree.congr (add_comm _ _) (fun _ => rfl) (add_zero 0))

/-- A holder whose body also takes what it holds apart. -/
theorem Spec.hold_fresh {k : κ} {counted : Bool} {body : Option ℕ → Own κ α}
    (hbody : ∀ v, Spec pre (body v) own e) :
    Spec pre (Own.hold k (Own.fresh k counted) body) own e :=
  (Spec.hold (Spec.fresh k counted) hbody).of_eq (zero_add e)

/-! ## Runs -/

omit [DecidableEq κ] in
/-- A computation that keeps nothing adds what it leaks to the ledger. -/
theorem Spec.returns {m : Own κ Unit} (h : Spec 0 m (fun _ => 0) d) {s s' : Owned κ}
    (hrun : m.run s = .ok ((), s')) :
    ∃ leaked, s'.resources = leaked + s.resources ∧ leaked.map Prod.fst = d := by
  obtain ⟨leaked, hs', hd⟩ := (h s s.resources (zero_add _).symm).2 () s' hrun
  exact ⟨leaked, by rw [hs', zero_add], hd⟩

omit [DecidableEq κ] in
theorem Spec.safe {m : Own κ Unit} (h : Spec 0 m (fun _ => 0) d) (s : Owned κ) :
    m.run s ≠ .error .notOwned :=
  (h s s.resources (zero_add _).symm).1

/-- A computation again and again. -/
def times : ℕ → Own κ Unit → Own κ Unit
  | 0, _ => return ()
  | n + 1, m => do
    m
    times n m

omit [DecidableEq κ] in
/-- Each time leaks the same. -/
theorem Spec.times {m : Own κ Unit} (h : Spec 0 m (fun _ => 0) d) (n : ℕ) :
    Spec 0 (times n m) (fun _ => 0) (n • d) := by
  induction n with
  | zero => exact (Spec.pure (fun _ => 0) ()).of_eq (zero_nsmul d).symm
  | succ n ih => exact (h.bind fun _ => ih).of_eq (succ_nsmul' d n).symm

/-- The count of a kind grows by what is leaked of it. -/
theorem Spec.count {m : Own κ Unit} (h : Spec 0 m (fun _ => 0) d) {s s' : Owned κ}
    (hrun : m.run s = .ok ((), s')) (k : κ) : s'.count k = d.count k + s.count k := by
  obtain ⟨leaked, hs', hd⟩ := h.returns hrun
  unfold Owned.count
  rw [hs', Multiset.map_add, Multiset.count_add, hd]

/-- No resource of a kind is left behind exactly where none of it is leaked. -/
theorem Spec.kept_iff {m : Own κ Unit} (h : Spec 0 m (fun _ => 0) d) {s s' : Owned κ}
    (hrun : m.run s = .ok ((), s')) (k : κ) :
    (∀ n, s'.resources.count (k, n) = s.resources.count (k, n)) ↔ k ∉ d := by
  obtain ⟨leaked, hs', hd⟩ := h.returns hrun
  have hcount (n : ℕ) : s'.resources.count (k, n) = s.resources.count (k, n) ↔
      (k, n) ∉ leaked := by
    rw [hs', Multiset.count_add, ← Multiset.count_eq_zero]
    omega
  have hmem : k ∈ d ↔ ∃ n, (k, n) ∈ leaked := by
    rw [← hd, Multiset.mem_map]
    constructor
    · rintro ⟨⟨_, n⟩, hr, rfl⟩
      exact ⟨n, hr⟩
    · rintro ⟨n, hr⟩
      exact ⟨(k, n), hr, rfl⟩
  rw [hmem, not_exists]
  exact forall_congr' hcount

end Own

end JSEngine.Common
