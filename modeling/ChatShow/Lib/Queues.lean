import Mathlib.Data.List.Basic
import Mathlib.Tactic.Common

/-! # First-in first-out queues

A queue is a state with a push and a pop, either of which may fail to come to an end. `Fifo` says
that a sequence of calls does with it what it would do with a list: a pop gives the oldest value
that has not been popped, or nothing where there is none. `fifo_of_along` is the simulation that
shows it: of an invariant between the state and the list, which the calls of the sequence keep under
a condition. -/

namespace ChatShow.Lib.Queues

variable {σ α ι κ : Type*}

/-- A queue. Calls depend on `ι` and `κ`, which say how things are outside of the queue. -/
structure Queue (σ α ι κ : Type*) where
  push : σ → ι → α → Option σ
  /-- what is returned, and the state -/
  pop : σ → κ → Option (Option α × σ)
  /-- what is asked of a state where so many values wait -/
  Fits : σ → ℕ → Prop

inductive Op (α ι κ : Type*)
  | push (i : ι) (v : α)
  | pop (k : κ)

/-- The call is a push. -/
def Op.isPush : Op α ι κ → Bool
  | .push .. => true
  | .pop _ => false

variable (Q : Queue σ α ι κ)

/-- The queue does what a list does, with the values `waiting` in it. -/
def Fifo (s : σ) (waiting : List α) : List (Op α ι κ) → Prop
  | [] => Q.Fits s waiting.length
  | .push i v :: ops =>
    Q.Fits s waiting.length ∧ ∃ s', Q.push s i v = some s' ∧ Fifo s' (waiting ++ [v]) ops
  | .pop k :: ops =>
    Q.Fits s waiting.length ∧ ∃ s', Q.pop s k = some (waiting.head?, s') ∧ Fifo s' waiting.tail ops

/-- Every call is made in a state that meets the condition `G` on it, where so many values have been
pushed. -/
def Along (G : σ → ℕ → Op α ι κ → Prop) (s : σ) (pushed : ℕ) : List (Op α ι κ) → Prop
  | [] => True
  | .push i v :: ops =>
    G s pushed (.push i v) ∧ ∀ s', Q.push s i v = some s' → Along G s' (pushed + 1) ops
  | .pop k :: ops => G s pushed (.pop k) ∧ ∀ r s', Q.pop s k = some (r, s') → Along G s' pushed ops

/-- Whether calls meet a condition that can be decided. -/
instance decidableAlong {G : σ → ℕ → Op α ι κ → Prop} [∀ s n o, Decidable (G s n o)] :
    ∀ (s : σ) (n : ℕ) (ops : List (Op α ι κ)), Decidable (Along Q G s n ops)
  | _, _, [] => .isTrue trivial
  | s, n, .push i v :: ops =>
    match h : Q.push s i v with
    | none => decidable_of_iff (G s n (.push i v))
        ⟨fun hg => ⟨hg, fun s' hs => by rw [h] at hs; cases hs⟩, And.left⟩
    | some s₁ =>
      have := decidableAlong (G := G) s₁ (n + 1) ops
      decidable_of_iff (G s n (.push i v) ∧ Along Q G s₁ (n + 1) ops)
        (and_congr_right fun _ =>
        ⟨fun hl s' hs => by rw [h] at hs; cases hs; exact hl, fun hl => hl s₁ h⟩)
  | s, n, .pop k :: ops =>
    match h : Q.pop s k with
    | none => decidable_of_iff (G s n (.pop k))
        ⟨fun hg => ⟨hg, fun r s' hs => by rw [h] at hs; cases hs⟩, And.left⟩
    | some (r₁, s₁) =>
      have := decidableAlong (G := G) s₁ n ops
      decidable_of_iff (G s n (.pop k) ∧ Along Q G s₁ n ops)
        (and_congr_right fun _ =>
          ⟨fun hl r s' hs => by rw [h] at hs; cases hs; exact hl, fun hl => hl r₁ s₁ h⟩)

variable {Q}

theorem Along.and {G G' : σ → ℕ → Op α ι κ → Prop} {s : σ} {n : ℕ} {ops : List (Op α ι κ)}
    (h : Along Q G s n ops) (h' : Along Q G' s n ops) :
    Along Q (fun s n o => G s n o ∧ G' s n o) s n ops := by
  induction ops generalizing s n with
  | nil => exact trivial
  | cons o ops ih =>
    cases o with
    | push i v => exact ⟨⟨h.1, h'.1⟩, fun s' hs => ih (h.2 s' hs) (h'.2 s' hs)⟩
    | pop k => exact ⟨⟨h.1, h'.1⟩, fun r s' hs => ih (h.2 r s' hs) (h'.2 r s' hs)⟩

theorem Fifo.fits {s : σ} {waiting : List α} {ops : List (Op α ι κ)} (h : Fifo Q s waiting ops) :
    Q.Fits s waiting.length := by
  cases ops with
  | nil => exact h
  | cons o ops =>
    cases o with
    | push i v => exact h.1
    | pop k => exact h.1

theorem fifo_push_iff {s s' : σ} {waiting : List α} {ops : List (Op α ι κ)} {i : ι} {v : α}
    (hfits : Q.Fits s waiting.length) (h : Q.push s i v = some s') :
    Fifo Q s waiting (.push i v :: ops) ↔ Fifo Q s' (waiting ++ [v]) ops := by
  refine ⟨fun ⟨_, s'', h', hrest⟩ => ?_, fun hrest => ⟨hfits, s', h, hrest⟩⟩
  rw [h] at h'
  cases h'
  exact hrest

theorem fifo_pop_iff {s s' : σ} {waiting : List α} {ops : List (Op α ι κ)} {k : κ}
    (hfits : Q.Fits s waiting.length) (h : Q.pop s k = some (waiting.head?, s')) :
    Fifo Q s waiting (.pop k :: ops) ↔ Fifo Q s' waiting.tail ops := by
  refine ⟨fun ⟨_, s'', h', hrest⟩ => ?_, fun hrest => ⟨hfits, s', h, hrest⟩⟩
  rw [h] at h'
  cases h'
  exact hrest

/-- **A queue that is kept like a list is one.** -/
theorem fifo_of_along {I : σ → List α → ℕ → Prop} {G : σ → ℕ → Op α ι κ → Prop}
    (hfits : ∀ s waiting n, I s waiting n → Q.Fits s waiting.length)
    (hpush : ∀ s waiting n i v, I s waiting n → G s n (.push i v) →
      ∃ s', Q.push s i v = some s' ∧ I s' (waiting ++ [v]) (n + 1))
    (hpop : ∀ s waiting n k, I s waiting n → G s n (.pop k) →
      ∃ s', Q.pop s k = some (waiting.head?, s') ∧ I s' waiting.tail n)
    {s : σ} {waiting : List α} {n : ℕ} {ops : List (Op α ι κ)} (hs : I s waiting n)
    (h : Along Q G s n ops) : Fifo Q s waiting ops := by
  induction ops generalizing s waiting n with
  | nil => exact hfits s waiting n hs
  | cons o ops ih =>
    cases o with
    | push i v =>
      obtain ⟨s', hs', hi⟩ := hpush s waiting n i v hs h.1
      exact ⟨hfits s waiting n hs, s', hs', ih hi (h.2 s' hs')⟩
    | pop k =>
      obtain ⟨s', hs', hi⟩ := hpop s waiting n k hs h.1
      exact ⟨hfits s waiting n hs, s', hs', ih hi (h.2 _ s' hs')⟩

end ChatShow.Lib.Queues
