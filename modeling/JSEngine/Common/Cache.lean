import Mathlib.Tactic

/-!
# Caches keyed by a hash

A cache that keeps only the hash of a call's arguments answers a call with the
value computed for the first call of the same hash. The table here records
which call filled each slot, so that what is said holds of every function the
calls compute.

* `serveAll_eq_map_first`: each call is answered by the first call of its hash.
* `serveAll_map_eq_iff`: the answers are the calls' own values exactly where
  calls of one hash have one value.
* `Sound.serve`, `Sound.serve_value`: the same for one call, over a table whose
  slots were filled by calls of a given set.
-/

namespace JSEngine.Common

/-- Which call filled the slot of a hash. -/
abbrev Cache (κ C : Type*) := κ → Option C

namespace Cache

variable {κ C V : Type*} [DecidableEq κ] (h : C → κ)

/-- The cache with nothing in it. -/
def empty : Cache κ C := fun _ => none

/-- Answer the call `c`: by the call that filled its slot, else by `c` itself,
    which then fills it. -/
def serve (t : Cache κ C) (c : C) : C × Cache κ C :=
  match t (h c) with
  | some d => (d, t)
  | none => (c, Function.update t (h c) (some c))

theorem serve_of_some {t : Cache κ C} {c d : C} (ht : t (h c) = some d) :
    serve h t c = (d, t) := by
  simp only [serve, ht]

theorem serve_of_none {t : Cache κ C} {c : C} (ht : t (h c) = none) :
    serve h t c = (c, Function.update t (h c) (some c)) := by
  simp only [serve, ht]

/-- Answer the calls in turn. -/
def serveAll : Cache κ C → List C → List C
  | _, [] => []
  | t, c :: cs => (serve h t c).1 :: serveAll (serve h t c).2 cs

/-- The call that answers `c` when the table `t` is followed by the calls `cs`. -/
def first (t : Cache κ C) (cs : List C) (c : C) : C :=
  ((t (h c)).or (cs.find? fun d => h d = h c)).getD c

theorem serve_fst (t : Cache κ C) (c : C) (cs : List C) :
    (serve h t c).1 = first h t (c :: cs) c := by
  unfold first
  cases ht : t (h c) with
  | none => simp [serve_of_none h ht]
  | some d => simp [serve_of_some h ht]

/-- After `c` was answered its slot is filled as if `c` headed the calls. -/
theorem first_serve (t : Cache κ C) (c d : C) (cs : List C) :
    first h (serve h t c).2 cs d = first h t (c :: cs) d := by
  unfold first
  have hfind : h c ≠ h d → ((c :: cs).find? fun e => h e = h d) = cs.find? fun e => h e = h d :=
    fun hd => List.find?_cons_of_neg (by simpa using hd)
  cases ht : t (h c) with
  | some e =>
    rw [serve_of_some h ht]
    by_cases hd : h c = h d
    · simp [← hd, ht]
    · rw [hfind hd]
  | none =>
    rw [serve_of_none h ht]
    by_cases hd : h c = h d
    · simp [← hd, ht]
    · simp only [hfind hd]
      rw [Function.update_of_ne fun e => hd e.symm]

theorem serveAll_eq_map (cs : List C) (t : Cache κ C) :
    serveAll h t cs = cs.map (first h t cs) := by
  induction cs generalizing t with
  | nil => rfl
  | cons c cs ih =>
    rw [serveAll, ih, List.map_cons, ← serve_fst h t c cs]
    congr 1
    apply List.map_congr_left
    intro d _
    exact first_serve h t c d cs

/-- **From the empty cache each call is answered by the first call with its
    hash.** -/
theorem serveAll_eq_map_first (cs : List C) :
    serveAll h empty cs = cs.map fun c => (cs.find? fun d => h d = h c).getD c :=
  serveAll_eq_map h cs empty

/-- The first call with the hash of `c ∈ cs` is one of the calls. -/
theorem find_hash {cs : List C} {c : C} (hc : c ∈ cs) :
    ∃ d ∈ cs, h d = h c ∧ (cs.find? fun d => h d = h c) = some d := by
  cases hf : cs.find? fun d => decide (h d = h c) with
  | none => simpa using List.find?_eq_none.mp hf c hc
  | some d => exact ⟨d, List.mem_of_find?_eq_some hf, by simpa using List.find?_some hf, rfl⟩

/-- **Transparency of a cache keyed by a hash.** The answers are the calls' own
    values exactly where any two calls of one hash have the same value. -/
theorem serveAll_map_eq_iff (f : C → V) (cs : List C) :
    (serveAll h empty cs).map f = cs.map f ↔
      ∀ c ∈ cs, ∀ c' ∈ cs, h c = h c' → f c = f c' := by
  rw [serveAll_eq_map_first, List.map_map, List.map_inj_left]
  constructor
  · intro heq c hc c' hc' hh
    obtain ⟨d, _, _, hf⟩ := find_hash h hc
    have h1 := heq c hc
    have h2 := heq c' hc'
    simp only [Function.comp_apply, ← hh, hf, Option.getD_some] at h1 h2
    rw [← h1, h2]
  · intro hf c hc
    obtain ⟨d, hd, hh, hfind⟩ := find_hash h hc
    simp only [Function.comp_apply, hfind, Option.getD_some]
    exact hf d hd c hc hh

/-! ## Tables filled by calls of a set -/

/-- Every slot was filled by a call of `S` with the slot's hash. -/
def Sound (S : C → Prop) (t : Cache κ C) : Prop := ∀ k d, t k = some d → S d ∧ h d = k

omit [DecidableEq κ] in
theorem sound_empty (S : C → Prop) : Sound h S empty := by
  intro k d hd
  simp [empty] at hd

omit [DecidableEq κ] in
theorem Sound.mono {S S' : C → Prop} {t : Cache κ C} (ht : Sound h S t) (hS : ∀ c, S c → S' c) :
    Sound h S' t :=
  fun k d hd => ⟨hS d (ht k d hd).1, (ht k d hd).2⟩

theorem Sound.serve {S : C → Prop} {t : Cache κ C} (ht : Sound h S t) {c : C} (hc : S c) :
    Sound h S (serve h t c).2 := by
  cases hslot : t (h c) with
  | some d =>
    rw [serve_of_some h hslot]
    exact ht
  | none =>
    rw [serve_of_none h hslot]
    intro k d hd
    dsimp only at hd
    by_cases hk : k = h c
    · subst hk
      rw [Function.update_self, Option.some.injEq] at hd
      subst hd
      exact ⟨hc, rfl⟩
    · rw [Function.update_of_ne hk] at hd
      exact ht k d hd

/-- Where calls of one hash have one value, a call is answered with its own. -/
theorem Sound.serve_value {S : C → Prop} {t : Cache κ C} (ht : Sound h S t) {f : C → V}
    (hf : ∀ d, S d → ∀ c, S c → h d = h c → f d = f c) {c : C} (hc : S c) :
    f (Cache.serve h t c).1 = f c := by
  cases hslot : t (h c) with
  | none => rw [serve_of_none h hslot]
  | some d =>
    rw [serve_of_some h hslot]
    obtain ⟨hd, hdc⟩ := ht _ d hslot
    exact hf d hd c hc hdc

end Cache

end JSEngine.Common
