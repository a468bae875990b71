import Mathlib.Algebra.BigOperators.Group.List.Basic

/-!
# Effects of computations that may not return

A computation over a state `σ` that may not return is a `StateT σ Option`.
`Effect μ d m` says what `m` adds to a measure of the state wherever it returns,
`Total P m Q` that from `P` it does return, in a state where `Q` holds. Both
compose along `>>=` and over loops, so the effect of a function is the sum of the
documented effects of the calls on its path.
-/

namespace JSEngine.Common

variable {σ α β ι : Type}

/-! ## What a computation adds -/

section Effect

variable {G : Type*} [AddMonoid G] {μ : σ → G}

/-- Wherever `m` returns, it has added `d` to the measure `μ`. -/
def Effect (μ : σ → G) (d : G) (m : StateT σ Option α) : Prop :=
  ∀ s a s', m.run s = some (a, s') → μ s' = μ s + d

theorem Effect.of_eq {d e : G} {m : StateT σ Option α} (h : Effect μ d m) (he : d = e) :
    Effect μ e m :=
  he ▸ h

theorem Effect.pure (a : α) : Effect μ 0 (pure a : StateT σ Option α) := by
  intro s b s' h
  obtain ⟨rfl, rfl⟩ : a = b ∧ s = s' := by simpa using h
  rw [add_zero]

theorem Effect.bind {d e : G} {m : StateT σ Option α} {f : α → StateT σ Option β}
    (hm : Effect μ d m) (hf : ∀ a, Effect μ e (f a)) : Effect μ (d + e) (m >>= f) := by
  intro s b s'' h
  rw [StateT.run_bind] at h
  obtain ⟨⟨a, s'⟩, hs, hs'⟩ := Option.bind_eq_some_iff.mp h
  rw [hf a s' b s'' hs', hm s a s' hs, add_assoc]

theorem Effect.seq {d e : G} {m : StateT σ Option α} {m' : StateT σ Option β}
    (hm : Effect μ d m) (hm' : Effect μ e m') : Effect μ (d + e) (m >>= fun _ => m') :=
  hm.bind fun _ => hm'

/-- A loop adds what its rounds add. -/
theorem Effect.forM {d : ι → G} {f : ι → StateT σ Option PUnit} (hf : ∀ i, Effect μ (d i) (f i))
    (l : List ι) : Effect μ (l.map d).sum (l.forM f) := by
  induction l with
  | nil => exact Effect.pure _
  | cons i l ih =>
    rw [List.map_cons, List.sum_cons]
    show Effect μ _ (f i >>= fun _ => l.forM f)
    exact (hf i).seq ih

end Effect

/-! ## That it returns -/

/-- From `P`, the computation returns, and in a state where `Q` holds. -/
def Total (P : σ → Prop) (m : StateT σ Option α) (Q : σ → Prop) : Prop :=
  ∀ s, P s → ∃ a s', m.run s = some (a, s') ∧ Q s'

theorem Total.pure {P : σ → Prop} (a : α) : Total P (pure a : StateT σ Option α) P :=
  fun s hs => ⟨a, s, rfl, hs⟩

theorem Total.bind {P Q R : σ → Prop} {m : StateT σ Option α} {f : α → StateT σ Option β}
    (hm : Total P m Q) (hf : ∀ a, Total Q (f a) R) : Total P (m >>= f) R := by
  intro s hs
  obtain ⟨a, s', hm, hs'⟩ := hm s hs
  obtain ⟨b, s'', hf, hs''⟩ := hf a s' hs'
  refine ⟨b, s'', ?_, hs''⟩
  rw [StateT.run_bind, hm]
  exact hf

theorem Total.seq {P Q R : σ → Prop} {m : StateT σ Option α} {m' : StateT σ Option β}
    (hm : Total P m Q) (hm' : Total Q m' R) : Total P (m >>= fun _ => m') R :=
  hm.bind fun _ => hm'

/-- A loop whose rounds step through `P 0`, `P 1`, … -/
theorem Total.forM {P : ℕ → σ → Prop} {f : ι → StateT σ Option PUnit} (l : List ι)
    (hf : ∀ i ∈ l, ∀ n, Total (P n) (f i) (P (n + 1))) :
    ∀ n, Total (P n) (l.forM f) (P (n + l.length)) := by
  induction l with
  | nil => exact fun n => Total.pure _
  | cons i l ih =>
    intro n
    have hi := hf i List.mem_cons_self n
    have hl := ih (fun j hj => hf j (List.mem_cons_of_mem _ hj)) (n + 1)
    have hlen : n + 1 + l.length = n + (i :: l).length := by
      rw [List.length_cons]
      omega
    rw [← hlen]
    show Total _ (f i >>= fun _ => l.forM f) _
    exact hi.seq hl

/-- A loop whose rounds keep `P`. -/
theorem Total.forM_inv {P : σ → Prop} {f : ι → StateT σ Option PUnit} (l : List ι)
    (hf : ∀ i, Total P (f i) P) : Total P (l.forM f) P :=
  Total.forM (P := fun _ => P) l (fun i _ _ => hf i) 0

end JSEngine.Common
