/-
  Grainlift.Lib.Machine — machines that take one event at a time.

  A machine is a set of initial states and a total step function; an event that is not
  enabled leaves the state as it was. A guard `G s e` says which events a run may take
  in which states: `Path G s t` is a run from `s` to `t` whose every event met `G` in
  the state it was taken in, `ReachIn G s` such a run from an initial state, `Reach`
  the runs with no guard at all.

  Proved: the invariant rule (`Path.invariant`, `ReachIn.invariant`), the same rule with
  an invariant already known of the states passed (`ReachIn.invariant_under`), that runs
  compose, the simulation rule (`Path.simulate`): a map under which every step of one
  machine is a run of another takes runs to runs, and the rule for two runs on the same
  events (`Admits.related`).
-/

namespace Grainlift.Lib

structure Machine (σ ε : Type) where
  init : σ → Prop
  step : σ → ε → σ

namespace Machine

variable {σ ε : Type} (M : Machine σ ε)

inductive Path (G : σ → ε → Prop) : σ → σ → Prop
  | refl (s : σ) : Path G s s
  | step {s t : σ} (e : ε) : Path G s t → G t e → Path G s (M.step t e)

/-- Reached by a run whose every event met the guard. -/
def ReachIn (G : σ → ε → Prop) (s : σ) : Prop := ∃ s0, M.init s0 ∧ M.Path G s0 s

/-- Reached by any run. -/
def Reach (s : σ) : Prop := M.ReachIn (fun _ _ => True) s

/-- The state after the events `es`. -/
def run (s : σ) (es : List ε) : σ := es.foldl M.step s

variable {M} {G : σ → ε → Prop}

theorem ReachIn.init {s : σ} (h : M.init s) : M.ReachIn G s := ⟨s, h, .refl s⟩

theorem ReachIn.next {s : σ} (h : M.ReachIn G s) (e : ε) (g : G s e) : M.ReachIn G (M.step s e) := by
  obtain ⟨s0, h0, p⟩ := h
  exact ⟨s0, h0, p.step e g⟩

theorem Path.trans {s t u : σ} (h : M.Path G s t) (h' : M.Path G t u) : M.Path G s u := by
  induction h' with
  | refl => exact h
  | step e _ g ih => exact ih.step e g

theorem Path.weaken {G' : σ → ε → Prop} (hg : ∀ s e, G s e → G' s e) {s t : σ} (h : M.Path G s t) :
    M.Path G' s t := by
  induction h with
  | refl => exact .refl _
  | step e _ g ih => exact ih.step e (hg _ _ g)

theorem ReachIn.extend {s t : σ} (h : M.ReachIn G s) (p : M.Path G s t) : M.ReachIn G t := by
  obtain ⟨s0, h0, p0⟩ := h
  exact ⟨s0, h0, p0.trans p⟩

variable (M G) in
/-- Each of the events meets the guard in the state it is taken in. -/
def Admits (s : σ) : List ε → Prop
  | [] => True
  | e :: es => G s e ∧ Admits (M.step s e) es

theorem Admits.path {s : σ} {es : List ε} (h : M.Admits G s es) : M.Path G s (M.run s es) := by
  induction es generalizing s with
  | nil => exact .refl s
  | cons e es ih => exact (Path.step e (.refl s) h.1).trans (ih h.2)

/-- Two machines on the same events: what every step the guard of one lets through
    preserves relates the ends of the two runs. -/
theorem Admits.related {τ : Type} {N : Machine τ ε} {R : σ → τ → Prop}
    (hstep : ∀ s t e, G s e → R s t → R (M.step s e) (N.step t e)) {s : σ} {t : τ} {es : List ε} (h : M.Admits G s es)
    (hr : R s t) : R (M.run s es) (N.run t es) := by
  induction es generalizing s t with
  | nil => exact hr
  | cons e es ih => exact ih h.2 (hstep s t e h.1 hr)

theorem ReachIn.run {s : σ} (h : M.ReachIn G s) {es : List ε} (hes : M.Admits G s es) : M.ReachIn G (M.run s es) :=
  h.extend hes.path

theorem ReachIn.reach {s : σ} (h : M.ReachIn G s) : M.Reach s := by
  obtain ⟨s0, h0, p⟩ := h
  exact ⟨s0, h0, p.weaken fun _ _ _ => trivial⟩

/-- What every guarded step preserves holds to the end of the run. -/
theorem Path.invariant {P : σ → Prop} (hstep : ∀ s e, G s e → P s → P (M.step s e)) {s t : σ}
    (h : M.Path G s t) (hs : P s) : P t := by
  induction h with
  | refl => exact hs
  | step e _ g ih => exact hstep _ e g ih

theorem ReachIn.invariant {P : σ → Prop} (h0 : ∀ s, M.init s → P s)
    (hstep : ∀ s e, G s e → P s → P (M.step s e)) {s : σ} (h : M.ReachIn G s) : P s := by
  obtain ⟨s0, hi, p⟩ := h
  exact p.invariant hstep (h0 s0 hi)

/-- The rule with an invariant `I` already known of every state the run passes. -/
theorem ReachIn.invariant_under {I P : σ → Prop} (hI : ∀ s, M.ReachIn G s → I s) (h0 : ∀ s, M.init s → P s)
    (hstep : ∀ s e, G s e → I s → I (M.step s e) → P s → P (M.step s e)) {s : σ} (h : M.ReachIn G s) : P s := by
  obtain ⟨s0, hi, p⟩ := h
  induction p with
  | refl => exact h0 _ hi
  | step e p g ih =>
    have hr : M.ReachIn G _ := ⟨s0, hi, p⟩
    exact hstep _ e g (hI _ hr) (hI _ (hr.next e g)) ih

theorem Reach.next {s : σ} (h : M.Reach s) (e : ε) : M.Reach (M.step s e) := ReachIn.next h e trivial

theorem Path.run (s : σ) (es : List ε) : M.Path (fun _ _ => True) s (M.run s es) := by
  induction es generalizing s with
  | nil => exact .refl s
  | cons e es ih => exact (Path.step e (.refl s) trivial).trans (ih (M.step s e))

/-- Any sequence of events is a run. -/
theorem Reach.run {s : σ} (h : M.init s) (es : List ε) : M.Reach (M.run s es) := ⟨s, h, .run s es⟩

/-- Simulation: `f` takes each step of `M` to a run of `N`, so it takes runs to runs. -/
theorem Path.simulate {τ δ : Type} {N : Machine τ δ} {H : τ → δ → Prop} (f : σ → τ)
    (hf : ∀ s e, G s e → N.Path H (f s) (f (M.step s e))) {s t : σ} (h : M.Path G s t) :
    N.Path H (f s) (f t) := by
  induction h with
  | refl => exact .refl _
  | step e _ g ih => exact ih.trans (hf _ e g)

end Machine

/-! ## Processes in a list, by number -/

section

variable {α : Type} {l : List α} {i j : Nat} {x y : α}

theorem getElem?_set_cases (h : (l.set i x)[j]? = some y) : (j = i ∧ y = x) ∨ (j ≠ i ∧ l[j]? = some y) := by
  by_cases e : i = j
  · subst e
    refine .inl ⟨rfl, ?_⟩
    rw [List.getElem?_set_self'] at h
    cases hl : l[i]? <;> simp_all
  · exact .inr ⟨fun h' => e h'.symm, by rwa [List.getElem?_set_ne e] at h⟩

theorem getElem?_snoc_cases (h : (l ++ [x])[i]? = some y) : l[i]? = some y ∨ (i = l.length ∧ y = x) := by
  rcases Nat.lt_or_ge i l.length with hl | hl
  · exact .inl (by rwa [List.getElem?_append_left hl] at h)
  · rw [List.getElem?_append_right hl] at h
    have hy := List.mem_singleton.mp (List.mem_of_getElem? h)
    have := (List.getElem?_eq_some_iff.mp h).1
    simp only [List.length_singleton] at this
    exact .inr ⟨by omega, hy⟩

theorem getElem?_set_of_some (h : l[i]? = some y) : (l.set i x)[i]? = some x := by
  rw [List.getElem?_set_self', h]
  rfl

theorem set_getElem?_self (h : l[i]? = some x) : l.set i x = l := by
  obtain ⟨hi, rfl⟩ := List.getElem?_eq_some_iff.mp h
  exact List.set_getElem_self hi

/-- How many pass a test, when one takes another's place. -/
theorem countP_set_of_some (q : α → Bool) (h : l[i]? = some y) (x : α) :
    (l.set i x).countP q + (q y).toNat = l.countP q + (q x).toNat := by
  obtain ⟨hi, rfl⟩ := List.getElem?_eq_some_iff.mp h
  rw [List.countP_set hi]
  have hpos : q l[i] = true → 0 < l.countP q := fun hq => List.countP_pos_iff.mpr ⟨_, List.getElem_mem hi, hq⟩
  cases hq : q l[i] with
  | false => cases q x <;> simp
  | true =>
    have := hpos hq
    cases q x <;> simp <;> omega

theorem getElem?_snoc_of_some (h : l[i]? = some y) : (l ++ [x])[i]? = some y := by
  rw [List.getElem?_append_left (List.getElem?_eq_some_iff.mp h).1, h]

end

end Grainlift.Lib
