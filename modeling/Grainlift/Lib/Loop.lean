/-
  Grainlift.Lib.Loop — `loop { .. }` as the step function of its body.

  A round goes on with a new state or leaves with a value. `Leaves step s r`: from `s` the
  loop ends, and ends with `r`; nothing says that it must. `run` is the loop for a bounded
  number of rounds. A measure that every round decreases makes the loop end within it
  (`run_of_measure`).
-/

namespace Grainlift.Lib.Loop

inductive Round (σ ρ : Type) where
  | again (s : σ)
  | leave (r : ρ)

variable {σ ρ : Type} {step : σ → Round σ ρ} {s s' : σ} {r r' : ρ}

inductive Leaves (step : σ → Round σ ρ) : σ → ρ → Prop
  | now {s : σ} {r : ρ} : step s = .leave r → Leaves step s r
  | later {s s' : σ} {r : ρ} : step s = .again s' → Leaves step s' r → Leaves step s r

def run (step : σ → Round σ ρ) : Nat → σ → Option ρ
  | 0, _ => none
  | rounds + 1, s =>
    match step s with
    | .again s' => run step rounds s'
    | .leave r => some r

theorem run_again {rounds : Nat} (h : step s = .again s') : run step (rounds + 1) s = run step rounds s' := by
  simp only [run, h]

theorem run_leave {rounds : Nat} (h : step s = .leave r) : run step (rounds + 1) s = some r := by
  simp only [run, h]

/-- A loop ends in one way. -/
theorem Leaves.unique (h : Leaves step s r) (h' : Leaves step s r') : r = r' := by
  induction h with
  | now hs =>
    cases h' with
    | now hs' => exact Round.leave.inj (hs.symm.trans hs')
    | later hs' _ => cases hs.symm.trans hs'
  | later hs _ ih =>
    cases h' with
    | now hs' => cases hs.symm.trans hs'
    | later hs' hl =>
      cases hs.symm.trans hs'
      exact ih hl

theorem leaves_of_run {rounds : Nat} (h : run step rounds s = some r) : Leaves step s r := by
  induction rounds generalizing s with
  | zero => cases h
  | succ rounds ih =>
    cases hs : step s with
    | again s' =>
      rw [run_again hs] at h
      exact .later hs (ih h)
    | leave r' =>
      rw [run_leave hs] at h
      cases h
      exact .now hs

theorem run_of_leaves (h : Leaves step s r) : ∃ rounds, run step rounds s = some r := by
  induction h with
  | now hs => exact ⟨1, run_leave hs⟩
  | later hs _ ih =>
    obtain ⟨rounds, hr⟩ := ih
    exact ⟨rounds + 1, by rw [run_again hs, hr]⟩

/-- While `Inv` holds every round decreases `μ`: the loop ends within `μ s + 1` rounds, and
    more rounds change nothing. -/
theorem run_of_measure {Inv : σ → Prop} {μ : σ → Nat}
    (hstep : ∀ s s', Inv s → step s = .again s' → Inv s' ∧ μ s' < μ s) (hs : Inv s) :
    ∃ r, ∀ rounds, μ s < rounds → run step rounds s = some r := by
  induction hn : μ s using Nat.strongRecOn generalizing s with
  | ind n ih =>
    cases hr : step s with
    | leave r =>
      refine ⟨r, ?_⟩
      intro rounds hlt
      obtain ⟨k, rfl⟩ := Nat.exists_eq_succ_of_ne_zero (Nat.ne_zero_of_lt hlt)
      exact run_leave hr
    | again s' =>
      obtain ⟨hi, hlt⟩ := hstep s s' hs hr
      obtain ⟨r, hrun⟩ := ih (μ s') (hn ▸ hlt) hi rfl
      refine ⟨r, ?_⟩
      intro rounds hr'
      obtain ⟨k, rfl⟩ := Nat.exists_eq_succ_of_ne_zero (Nat.ne_zero_of_lt hr')
      rw [run_again hr]
      exact hrun k (by omega)

end Grainlift.Lib.Loop
