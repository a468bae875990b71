import Mathlib.Data.List.Basic

/-!
# Runs of labelled machines

A machine takes one action at a time. What the environment decides (which key
the collector clears, which address the allocator returns) is part of the
action, so a step is a partial function and a run is executable on a list of
actions.

* `run_history`: an invariant that relates the state to the events emitted so
  far, kept by every step, holds after every run.
* `run_progress`: a run whose steps are all possible under `P` is possible.
* `run_simulation`: a step-by-step simulation gives equal events over runs.
* `run_accepts_iff`: where each step's events are acceptable exactly under `P`,
  those of a run are acceptable exactly where it `Meets P`.

A condition `P` on the state before a step restricts the runs: `Meets P` says
that every step of the run is taken under `P`.
-/

namespace JSEngine.Common

/-- A labelled machine with start state `init`. `step s a` is `none` where the
    action `a` is not possible in `s`, otherwise the next state and the events
    the step emits. -/
structure Machine (σ α ω : Type*) where
  init : σ
  step : σ → α → Option (σ × List ω)

namespace Machine

variable {σ τ α ω : Type*} (M : Machine σ α ω)

/-- Take the actions in turn, from `s`; the result is the last state and all
    events in order. -/
def run : σ → List α → Option (σ × List ω)
  | s, [] => some (s, [])
  | s, a :: as =>
    match M.step s a with
    | none => none
    | some (s', o) => (run s' as).map fun r => (r.1, o ++ r.2)

/-- Every action of the run is taken in a state where `P` allows it. -/
def Meets (P : σ → α → Prop) : σ → List α → Prop
  | _, [] => True
  | s, a :: as => P s a ∧ ∀ r, M.step s a = some r → Meets P r.1 as

instance decidableMeets (P : σ → α → Prop) [∀ s a, Decidable (P s a)] :
    ∀ s as, Decidable (M.Meets P s as)
  | _, [] => isTrue trivial
  | s, a :: as =>
    match h : M.step s a with
    | none => decidable_of_iff (P s a) (by simp [Meets, h])
    | some r =>
      have := decidableMeets P r.1 as
      decidable_of_iff (P s a ∧ M.Meets P r.1 as) (by simp [Meets, h])

@[simp] theorem run_nil (s : σ) : M.run s [] = some (s, []) := rfl

/-- The first step of a run that succeeds. -/
theorem run_cons_eq_some {s : σ} {a : α} {as : List α} {r : σ × List ω} :
    M.run s (a :: as) = some r ↔
      ∃ s' o q, M.step s a = some (s', o) ∧ M.run s' as = some q ∧ r = (q.1, o ++ q.2) := by
  simp only [run]
  cases hs : M.step s a with
  | none => simp
  | some p =>
    obtain ⟨s', o⟩ := p
    simp only [Option.map_eq_some_iff, Option.some.injEq, Prod.mk.injEq]
    constructor
    · rintro ⟨q, hq, rfl⟩
      exact ⟨s', o, q, ⟨rfl, rfl⟩, hq, rfl⟩
    · rintro ⟨_, _, q, ⟨rfl, rfl⟩, hq, rfl⟩
      exact ⟨q, hq, rfl⟩

theorem meets_cons {P : σ → α → Prop} {s s' : σ} {o : List ω} {a : α} {as : List α}
    (h : M.Meets P s (a :: as)) (hs : M.step s a = some (s', o)) :
    P s a ∧ M.Meets P s' as :=
  ⟨h.1, h.2 _ hs⟩

theorem meets_cons_of {P : σ → α → Prop} {s s' : σ} {o : List ω} {a : α} {as : List α}
    (hP : P s a) (hs : M.step s a = some (s', o)) (h : M.Meets P s' as) :
    M.Meets P s (a :: as) := by
  refine ⟨hP, fun r hr => ?_⟩
  obtain rfl := Option.some.inj (hs.symm.trans hr)
  exact h

/-- A run under no condition. -/
theorem meets_true (s : σ) (as : List α) : M.Meets (fun _ _ => True) s as := by
  induction as generalizing s with
  | nil => trivial
  | cons a as ih => exact ⟨trivial, fun r _ => ih r.1⟩

/-- A run splits where its list of actions does. -/
theorem run_append {s : σ} {as bs : List α} {r : σ × List ω} :
    M.run s (as ++ bs) = some r ↔
      ∃ p q, M.run s as = some p ∧ M.run p.1 bs = some q ∧ r = (q.1, p.2 ++ q.2) := by
  induction as generalizing s r with
  | nil =>
    obtain ⟨s', o⟩ := r
    simp
  | cons a as ih =>
    simp only [List.cons_append, run_cons_eq_some]
    constructor
    · rintro ⟨s', o, q, hs, hq, rfl⟩
      obtain ⟨p, q', hp, hq', rfl⟩ := ih.mp hq
      exact ⟨_, q', ⟨s', o, p, hs, hp, rfl⟩, hq', by simp⟩
    · rintro ⟨p, q, ⟨s', o, p', hs, hp', rfl⟩, hq, rfl⟩
      exact ⟨s', o, _, hs, ih.mpr ⟨p', q, hp', hq, rfl⟩, by simp⟩

/-- **Invariants over runs, with the events seen so far.** -/
theorem run_history {P : σ → α → Prop} {I : σ → List ω → Prop}
    (hstep : ∀ s h a s' o, I s h → P s a → M.step s a = some (s', o) → I s' (h ++ o)) :
    ∀ as s h r, I s h → M.Meets P s as → M.run s as = some r → I r.1 (h ++ r.2) := by
  intro as
  induction as with
  | nil =>
    intro s h r hI _ hr
    obtain rfl : (s, []) = r := by simpa using hr
    simpa using hI
  | cons a as ih =>
    intro s h r hI hP hr
    obtain ⟨s', o, q, hs, hq, rfl⟩ := M.run_cons_eq_some.mp hr
    obtain ⟨hPa, hPas⟩ := M.meets_cons hP hs
    have := ih s' (h ++ o) q (hstep s h a s' o hI hPa hs) hPas hq
    simpa using this

/-- **Progress over runs**: where every step under `P` is possible and keeps `I`, so is
    every run. -/
theorem run_progress {P : σ → α → Prop} {I : σ → Prop}
    (hstep : ∀ s a, I s → P s a → ∃ s' o, M.step s a = some (s', o) ∧ I s') :
    ∀ as s, I s → M.Meets P s as → ∃ r, M.run s as = some r ∧ I r.1 := by
  intro as
  induction as with
  | nil => exact fun s hI _ => ⟨(s, []), rfl, hI⟩
  | cons a as ih =>
    intro s hI hP
    obtain ⟨s', o, hs, hI'⟩ := hstep s a hI hP.1
    obtain ⟨q, hq, hIq⟩ := ih s' hI' (M.meets_cons hP hs).2
    exact ⟨_, M.run_cons_eq_some.mpr ⟨s', o, q, hs, hq, rfl⟩, hIq⟩

/-- **Simulation over runs**: where every step of `M` under `P` is matched by a
    step of `N` with the same events, so is every run. -/
theorem run_simulation (N : Machine τ α ω) {P : σ → α → Prop} {R : σ → τ → Prop}
    (hstep : ∀ s t a s' o, R s t → P s a → M.step s a = some (s', o) →
      ∃ t', N.step t a = some (t', o) ∧ R s' t') :
    ∀ as s t r, R s t → M.Meets P s as → M.run s as = some r →
      ∃ t', N.run t as = some (t', r.2) ∧ R r.1 t' := by
  intro as
  induction as with
  | nil =>
    intro s t r hR _ hr
    obtain rfl : (s, []) = r := by simpa using hr
    exact ⟨t, rfl, hR⟩
  | cons a as ih =>
    intro s t r hR hP hr
    obtain ⟨s', o, q, hs, hq, rfl⟩ := M.run_cons_eq_some.mp hr
    obtain ⟨hPa, hPas⟩ := M.meets_cons hP hs
    obtain ⟨t', ht, hR'⟩ := hstep s t a s' o hR hPa hs
    obtain ⟨t'', ht', hR''⟩ := ih s' t' q hR' hPas hq
    exact ⟨t'', N.run_cons_eq_some.mpr ⟨t', o, _, ht, ht', rfl⟩, hR''⟩

/-- **Acceptable runs.** `A` is a prefix-closed property of event histories. If
    from every good state a step is acceptable exactly under `P`, and leads to a
    good state then, a run is acceptable exactly where all its steps meet `P`. -/
theorem run_accepts_iff {P : σ → α → Prop} {I : σ → List ω → Prop} {A : List ω → Prop}
    (hclosed : ∀ h o, A (h ++ o) → A h) (hgood : ∀ s h, I s h → A h)
    (hstep : ∀ s h a s' o, I s h → M.step s a = some (s', o) →
      (A (h ++ o) ↔ P s a) ∧ (P s a → I s' (h ++ o))) :
    ∀ as s h r, I s h → M.run s as = some r → (A (h ++ r.2) ↔ M.Meets P s as) := by
  intro as
  induction as with
  | nil =>
    intro s h r hI hr
    obtain rfl : (s, []) = r := by simpa using hr
    have hA : A h := hgood s h hI
    simpa [Meets] using hA
  | cons a as ih =>
    intro s h r hI hr
    obtain ⟨s', o, q, hs, hq, rfl⟩ := M.run_cons_eq_some.mp hr
    obtain ⟨hacc, hnext⟩ := hstep s h a s' o hI hs
    have hmeets : M.Meets P s (a :: as) ↔ P s a ∧ M.Meets P s' as := by
      simp only [Meets, hs, Option.some.injEq, forall_eq']
    have happ : h ++ (o ++ q.2) = h ++ o ++ q.2 := (List.append_assoc ..).symm
    rw [hmeets, happ]
    constructor
    · intro hA
      have hP : P s a := hacc.mp (hclosed _ _ hA)
      exact ⟨hP, (ih s' (h ++ o) q (hnext hP) hq).mp hA⟩
    · intro ⟨hP, hPs⟩
      exact (ih s' (h ++ o) q (hnext hP) hq).mpr hPs

end Machine

end JSEngine.Common
