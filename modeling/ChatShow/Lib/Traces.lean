import ChatShow.Lib.Runs
import Mathlib.Order.Nat

/-! # Runs without an end

A trace is the states and the labels of a run that goes on. What has to come about in it is found by the
first label of a kind behind a state (`exists_first`), and by a measure that grows again and again
(`exists_le_of_grows`). -/

namespace ChatShow.Lib.Traces

open ChatShow.Lib.Runs

variable {σ ι : Type*} {step : σ → ι → Option σ}

structure Trace (step : σ → ι → Option σ) where
  state : ℕ → σ
  label : ℕ → ι
  step_eq : ∀ n, step (state n) (label n) = some (state (n + 1))

namespace Trace

/-- **What the steps that meet the condition keep, holds all along a trace that meets it.** -/
theorem inv {P : σ → Prop} {G : σ → ι → Prop} (hstep : ∀ s a s', P s → G s a → step s a = some s' → P s')
    (t : Trace step) (hG : ∀ n, G (t.state n) (t.label n)) (h : P (t.state 0)) : ∀ n, P (t.state n)
  | 0 => h
  | n + 1 => hstep _ _ _ (inv hstep t hG h n) (hG n) (t.step_eq n)

/-- What one state has to the next, a state has to all that come behind it. -/
theorem rel {r : σ → σ → Prop} (hrefl : ∀ s, r s s) (htrans : ∀ s₁ s₂ s₃, r s₁ s₂ → r s₂ s₃ → r s₁ s₃)
    (hstep : ∀ s a s', step s a = some s' → r s s') (t : Trace step) {n m : ℕ} (h : n ≤ m) :
    r (t.state n) (t.state m) := by
  induction h with
  | refl => exact hrefl _
  | step _ ih => exact htrans _ _ _ ih (hstep _ _ _ (t.step_eq _))

/-- **Where a label of the kind `Q` comes, a first one does**, and what the other labels keep holds up to
it. -/
theorem exists_first {P : σ → Prop} {Q : ι → Prop}
    (hstep : ∀ s a s', P s → ¬ Q a → step s a = some s' → P s') (t : Trace step) {n m : ℕ} (h : n ≤ m)
    (hP : P (t.state n)) (hQ : Q (t.label m)) : ∃ k, n ≤ k ∧ P (t.state k) ∧ Q (t.label k) := by
  obtain ⟨d, rfl⟩ := Nat.exists_eq_add_of_le h
  induction d generalizing n with
  | zero => exact ⟨n, le_rfl, hP, hQ⟩
  | succ d ih =>
    by_cases hn : Q (t.label n)
    · exact ⟨n, le_rfl, hP, hn⟩
    · rw [Nat.add_comm d, ← Nat.add_assoc] at hQ
      obtain ⟨k, hk, hkP⟩ := ih (hstep _ _ _ hP hn (t.step_eq n)) (Nat.le_add_right _ _) hQ
      exact ⟨k, by omega, hkP⟩

end Trace

/-- A measure that grows again behind every place passes every bound. -/
theorem exists_le_of_grows {f : ℕ → ℕ} {n : ℕ} (h : ∀ k, n ≤ k → ∃ k', k ≤ k' ∧ f k < f k') (N : ℕ) :
    ∃ k, n ≤ k ∧ N ≤ f k := by
  induction N with
  | zero => exact ⟨n, le_rfl, Nat.zero_le _⟩
  | succ N ih =>
    obtain ⟨k, hk, hle⟩ := ih
    obtain ⟨k', hk', hlt⟩ := h k hk
    exact ⟨k', hk.trans hk', hle.trans_lt hlt⟩

end ChatShow.Lib.Traces
