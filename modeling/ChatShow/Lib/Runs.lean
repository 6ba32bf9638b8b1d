import Mathlib.Data.List.Basic
import Mathlib.Tactic.Common

/-! # Runs of a step function

A system is a function that takes a state and a label to the next state, or to `none` where the step
is not one the system can take. `run` follows a list of labels. An invariant of the steps is an
invariant of the runs (`run_inv`), also where the steps keep it only under a condition that every
step of the run meets (`run_inv_along`). -/

namespace ChatShow.Lib.Runs

variable {σ ι : Type*} {step : σ → ι → Option σ}

/-- The state that the steps of a list lead to. -/
def run (step : σ → ι → Option σ) (s : σ) : List ι → Option σ
  | [] => some s
  | a :: l => (step s a).bind fun s' => run step s' l

@[simp] theorem run_nil (s : σ) : run step s [] = some s := rfl

@[simp] theorem run_cons (s : σ) (a : ι) (l : List ι) :
    run step s (a :: l) = (step s a).bind fun s' => run step s' l := rfl

theorem run_cons_some {s s'' : σ} {a : ι} {l : List ι} :
    run step s (a :: l) = some s'' ↔ ∃ s', step s a = some s' ∧ run step s' l = some s'' := by
  rw [run_cons, Option.bind_eq_some_iff]

theorem run_cons_eq {s s' : σ} {a : ι} {l : List ι} {r : Option σ} (h : step s a = some s')
    (hr : run step s' l = r) : run step s (a :: l) = r := by
  rw [run_cons, h, Option.bind_some, hr]

theorem run_append (s : σ) (l l' : List ι) :
    run step s (l ++ l') = (run step s l).bind fun s' => run step s' l' := by
  induction l generalizing s with
  | nil => rfl
  | cons a l ih =>
    rw [List.cons_append, run_cons, run_cons, Option.bind_assoc]
    congr 1
    funext s'
    exact ih s'

theorem run_append_some {s s'' : σ} {l l' : List ι} :
    run step s (l ++ l') = some s'' ↔ ∃ s', run step s l = some s' ∧ run step s' l' = some s'' := by
  rw [run_append, Option.bind_eq_some_iff]

/-- **What every step keeps, every run keeps.** -/
theorem run_inv {P : σ → Prop} (hstep : ∀ s a s', P s → step s a = some s' → P s')
    {s s' : σ} {l : List ι} (h : run step s l = some s') (hs : P s) : P s' := by
  induction l generalizing s with
  | nil => cases h; exact hs
  | cons a l ih =>
    obtain ⟨s₁, h₁, h₂⟩ := run_cons_some.mp h
    exact ih h₂ (hstep s a s₁ hs h₁)

/-- What every step of a fold leaves as it is, the fold does. -/
theorem foldl_keep {β : Type*} {f : σ → ι → σ} (g : σ → β) (h : ∀ s a, g (f s a) = g s) (s : σ)
    (l : List ι) : g (l.foldl f s) = g s := by
  induction l generalizing s with
  | nil => rfl
  | cons a l ih => exact (ih (f s a)).trans (h s a)

/-- Every step of the run is taken in a state that meets the condition `G` on it. -/
def Along (step : σ → ι → Option σ) (G : σ → ι → Prop) (s : σ) : List ι → Prop
  | [] => True
  | a :: l => G s a ∧ ∀ s', step s a = some s' → Along step G s' l

theorem along_cons_none {G : σ → ι → Prop} {s : σ} {a : ι} {l : List ι} (h : step s a = none) :
    Along step G s (a :: l) ↔ G s a := by
  refine ⟨And.left, fun hg => ⟨hg, fun s' hs => ?_⟩⟩
  rw [h] at hs
  cases hs

theorem along_cons_some {G : σ → ι → Prop} {s s₁ : σ} {a : ι} {l : List ι}
    (h : step s a = some s₁) : Along step G s (a :: l) ↔ G s a ∧ Along step G s₁ l := by
  refine and_congr_right fun _ => ⟨fun hl => hl s₁ h, fun hl s' hs => ?_⟩
  rw [h] at hs
  cases hs
  exact hl

/-- Whether a run meets a condition that can be decided. -/
instance decidableAlong {G : σ → ι → Prop} [∀ s a, Decidable (G s a)] :
    ∀ (s : σ) (l : List ι), Decidable (Along step G s l)
  | _, [] => .isTrue trivial
  | s, a :: l =>
    match h : step s a with
    | none => decidable_of_iff _ (along_cons_none h).symm
    | some s₁ =>
      have := decidableAlong (G := G) s₁ l
      decidable_of_iff _ (along_cons_some h).symm

/-- A run meets a condition where every state on its way does. -/
theorem along_of_take {G : σ → ι → Prop} {s : σ} {l : List ι}
    (h : ∀ n (hn : n < l.length) s', run step s (l.take n) = some s' → G s' l[n]) :
    Along step G s l := by
  induction l generalizing s with
  | nil => trivial
  | cons a l ih =>
    refine ⟨h 0 (Nat.succ_pos _) s rfl, fun s₁ h₁ => ih fun n hn s' h' => ?_⟩
    exact h (n + 1) (Nat.succ_lt_succ hn) s' (run_cons_some.mpr ⟨s₁, h₁, h'⟩)

theorem Along.mono {G G' : σ → ι → Prop} {s : σ} {l : List ι} (h : Along step G s l)
    (hG : ∀ s a, G s a → G' s a) : Along step G' s l := by
  induction l generalizing s with
  | nil => trivial
  | cons a l ih => exact ⟨hG s a h.1, fun s' hs => ih (h.2 s' hs)⟩

/-- Where the steps that meet a condition keep `P`, such a run meets all that follows of the two. -/
theorem Along.imp {P : σ → Prop} {G G' : σ → ι → Prop}
    (hstep : ∀ s a s', P s → G s a → step s a = some s' → P s') (hG : ∀ s a, P s → G s a → G' s a)
    {s : σ} {l : List ι} (h : Along step G s l) (hs : P s) : Along step G' s l := by
  induction l generalizing s with
  | nil => trivial
  | cons a l ih => exact ⟨hG s a hs h.1, fun s' hs' => ih (h.2 s' hs') (hstep s a s' hs h.1 hs')⟩

/-- Two conditions that say the same in the states that the one leads to are the same along a run. -/
theorem along_congr {I : σ → Prop} {G G' : σ → ι → Prop} (hiff : ∀ s a, I s → (G s a ↔ G' s a))
    (hstep : ∀ s a s', I s → G s a → step s a = some s' → I s') {s : σ} (l : List ι) (hs : I s) :
    Along step G s l ↔ Along step G' s l := by
  induction l generalizing s with
  | nil => exact Iff.rfl
  | cons a l ih =>
    unfold Along
    rw [← hiff s a hs]
    refine and_congr_right fun hg => forall₂_congr fun s' hs' => ih ?_
    exact hstep s a s' hs hg hs'

theorem along_append {G : σ → ι → Prop} {s : σ} {l l' : List ι}
    (h : Along step G s (l ++ l')) :
    Along step G s l ∧ ∀ s', run step s l = some s' → Along step G s' l' := by
  induction l generalizing s with
  | nil => exact ⟨trivial, fun s' hs => by cases hs; exact h⟩
  | cons a l ih =>
    obtain ⟨hg, hn⟩ := h
    refine ⟨⟨hg, fun s' hs => (ih (hn s' hs)).1⟩, fun s'' hs => ?_⟩
    obtain ⟨s₁, h₁, h₂⟩ := run_cons_some.mp hs
    exact (ih (hn s₁ h₁)).2 s'' h₂

/-- **Where each step that meets the condition can be taken and keeps `P`, such a run comes to its
end and keeps it.** -/
theorem run_total_along {P : σ → Prop} {G : σ → ι → Prop}
    (hstep : ∀ s a, P s → G s a → ∃ s', step s a = some s' ∧ P s')
    {s : σ} {l : List ι} (hG : Along step G s l) (hs : P s) :
    ∃ s', run step s l = some s' ∧ P s' := by
  induction l generalizing s with
  | nil => exact ⟨s, rfl, hs⟩
  | cons a l ih =>
    obtain ⟨s₁, h₁, hp⟩ := hstep s a hs hG.1
    obtain ⟨s', h', hp'⟩ := ih (hG.2 s₁ h₁) hp
    exact ⟨s', run_cons_some.mpr ⟨s₁, h₁, h'⟩, hp'⟩

/-- **What every step that meets the condition keeps, every such run keeps**, where the labels of
the run are of a kind `Q`. -/
theorem run_inv_along {P : σ → Prop} {G : σ → ι → Prop} {Q : ι → Prop}
    (hstep : ∀ s a s', P s → Q a → G s a → step s a = some s' → P s')
    {s s' : σ} {l : List ι} (h : run step s l = some s') (hQ : ∀ a ∈ l, Q a)
    (hG : Along step G s l) (hs : P s) : P s' := by
  induction l generalizing s with
  | nil => cases h; exact hs
  | cons a l ih =>
    obtain ⟨s₁, h₁, h₂⟩ := run_cons_some.mp h
    exact ih h₂ (fun b hb => hQ b (List.mem_cons_of_mem _ hb)) (hG.2 s₁ h₁)
      (hstep s a s₁ hs (hQ a List.mem_cons_self) hG.1 h₁)

/-! ### The states on the way -/

theorem forall_prefix_nil {P : σ → Prop} {s : σ} :
    (∀ l' s', l' <+: [] → run step s l' = some s' → P s') ↔ P s := by
  refine ⟨fun h => h [] s (List.prefix_refl []) rfl, fun hp l' s' hl' h => ?_⟩
  rw [List.prefix_nil.mp hl'] at h
  cases h
  exact hp

theorem forall_prefix_none {P : σ → Prop} {s : σ} {a : ι} {l : List ι} (h : step s a = none) :
    (∀ l' s', l' <+: a :: l → run step s l' = some s' → P s') ↔ P s := by
  refine ⟨fun hall => hall [] s (List.nil_prefix) rfl, fun hp l' s' hl' hrun => ?_⟩
  cases l' with
  | nil =>
    cases hrun
    exact hp
  | cons b l' =>
    obtain ⟨rfl, -⟩ := List.cons_prefix_cons.mp hl'
    obtain ⟨s₁, h₁, -⟩ := run_cons_some.mp hrun
    rw [h] at h₁
    cases h₁

theorem forall_prefix_cons {P : σ → Prop} {s s₁ : σ} {a : ι} {l : List ι} (h : step s a = some s₁) :
    (∀ l' s', l' <+: a :: l → run step s l' = some s' → P s') ↔
      P s ∧ ∀ l' s', l' <+: l → run step s₁ l' = some s' → P s' := by
  constructor
  · refine fun hall => ⟨hall [] s List.nil_prefix rfl, fun l' s' hl' hrun => ?_⟩
    exact hall (a :: l') s' (List.cons_prefix_cons.mpr ⟨rfl, hl'⟩) (run_cons_some.mpr ⟨s₁, h, hrun⟩)
  · rintro ⟨hp, hall⟩ l' s' hl' hrun
    cases l' with
    | nil =>
      cases hrun
      exact hp
    | cons b l' =>
      obtain ⟨rfl, hpre⟩ := List.cons_prefix_cons.mp hl'
      obtain ⟨s₂, h₂, hrun⟩ := run_cons_some.mp hrun
      rw [h] at h₂
      cases h₂
      exact hall l' s' hpre hrun

/-- **Where a step leads to `P` just when it meets the condition, `P` holds in all states of a run
just when all of the run meets it.** -/
theorem along_iff {I P : σ → Prop} {G : σ → ι → Prop}
    (hstep : ∀ s a, I s → P s → ∃ s', step s a = some s' ∧ I s' ∧ (G s a ↔ P s'))
    {s : σ} (l : List ι) (hs : I s) (hp : P s) :
    (∀ l' s', l' <+: l → run step s l' = some s' → P s') ↔ Along step G s l := by
  induction l generalizing s with
  | nil => exact forall_prefix_nil.trans (iff_of_true hp trivial)
  | cons a l ih =>
    obtain ⟨s₁, h₁, hi, hiff⟩ := hstep s a hs hp
    rw [forall_prefix_cons h₁, along_cons_some h₁, hiff]
    constructor
    · rintro ⟨-, hall⟩
      have hp₁ : P s₁ := hall [] s₁ List.nil_prefix rfl
      exact ⟨hp₁, (ih hi hp₁).mp hall⟩
    · rintro ⟨hp₁, hl⟩
      exact ⟨hp, (ih hi hp₁).mpr hl⟩

/-- **Where the steps that meet a condition keep `I`, which has `P`, and the others lose `P`, it is
the states of a run that have `P` just when all of the run meets the condition.** A step that cannot
be taken is to meet it. -/
theorem along_iff_of_steps {I P : σ → Prop} {G : σ → ι → Prop} (hI : ∀ s, I s → P s)
    (hnone : ∀ s a, I s → step s a = none → G s a)
    (hstep : ∀ s a s', I s → step s a = some s' → (G s a → I s') ∧ (¬ G s a → ¬ P s'))
    {s : σ} (l : List ι) (hs : I s) :
    (∀ l' s', l' <+: l → run step s l' = some s' → P s') ↔ Along step G s l := by
  induction l generalizing s with
  | nil => exact forall_prefix_nil.trans (iff_of_true (hI s hs) trivial)
  | cons a l ih =>
    cases h₁ : step s a with
    | none =>
      rw [forall_prefix_none h₁, along_cons_none h₁]
      exact iff_of_true (hI s hs) (hnone s a hs h₁)
    | some s₁ =>
      obtain ⟨hkeep, hlose⟩ := hstep s a s₁ hs h₁
      rw [forall_prefix_cons h₁, along_cons_some h₁]
      constructor
      · rintro ⟨-, hall⟩
        have hg : G s a := not_not.mp fun hn => hlose hn (hall [] s₁ List.nil_prefix rfl)
        exact ⟨hg, (ih (hkeep hg)).mp hall⟩
      · rintro ⟨hg, hl⟩
        exact ⟨hI s hs, (ih (hkeep hg)).mpr hl⟩

/-- The same for a run that comes to its end. -/
theorem along_iff_of_run {I P : σ → Prop} {G : σ → ι → Prop} (hI : ∀ s, I s → P s)
    (hstep : ∀ s a s', I s → step s a = some s' → (G s a → I s') ∧ (¬ G s a → ¬ P s'))
    {s t : σ} {l : List ι} (h : run step s l = some t) (hs : I s) :
    (∀ l' s', l' <+: l → run step s l' = some s' → P s') ↔ Along step G s l := by
  induction l generalizing s with
  | nil => exact forall_prefix_nil.trans (iff_of_true (hI s hs) trivial)
  | cons a l ih =>
    obtain ⟨s₁, h₁, hrun⟩ := run_cons_some.mp h
    obtain ⟨hkeep, hlose⟩ := hstep s a s₁ hs h₁
    rw [forall_prefix_cons h₁, along_cons_some h₁]
    constructor
    · rintro ⟨-, hall⟩
      have hg : G s a := not_not.mp fun hn => hlose hn (hall [] s₁ List.nil_prefix rfl)
      exact ⟨hg, (ih hrun (hkeep hg)).mp hall⟩
    · rintro ⟨hg, hl⟩
      exact ⟨hI s hs, (ih hrun (hkeep hg)).mpr hl⟩

end ChatShow.Lib.Runs
