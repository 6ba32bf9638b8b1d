import Mathlib.Data.List.Nodup
import Mathlib.Logic.Function.Basic
import Mathlib.Tactic.Common

/-! # Linked queues

The nodes of a queue are linked by a map `next`; the queue has its head and its tail. `IsQueue` says
which list of nodes a queue has. The loops over a queue get a number of turns, and `none` is a loop
that has more of them, or a node that is freed twice. -/

namespace ChatShow.Lib.LinkedQueue

structure Queue (α : Type*) where
  head : Option α := none
  tail : Option α := none
deriving DecidableEq

variable {α : Type*} {next : α → Option α} {q : Queue α} {p : Option α} {l : List α} {a : α}

/-- The nodes from a pointer on. -/
def Chain (next : α → Option α) : Option α → List α → Prop
  | p, [] => p = none
  | p, a :: l => p = some a ∧ Chain next (next a) l

/-- A node that the pointer leads to. -/
inductive Reaches (next : α → Option α) : Option α → α → Prop
  | here (a : α) : Reaches next (some a) a
  | next (a : α) {b : α} : Reaches next (next a) b → Reaches next (some a) b

theorem Chain.mem_of_reaches (h : Chain next p l) (hr : Reaches next p a) : a ∈ l := by
  induction hr generalizing l with
  | here a =>
    cases l with
    | nil => cases h
    | cons b l => exact List.mem_cons.mpr (.inl (Option.some.inj h.1))
  | next a _ ih =>
    cases l with
    | nil => cases h
    | cons b l =>
      obtain ⟨hb, hl⟩ := h
      cases hb
      exact List.mem_cons_of_mem _ (ih hl)

/-- A queue that has the nodes of a list. -/
structure IsQueue (next : α → Option α) (q : Queue α) (l : List α) : Prop where
  chain : Chain next q.head l
  tail : q.tail = l.getLast?

theorem isQueue_empty (next : α → Option α) : IsQueue next {} [] := ⟨rfl, rfl⟩

/-! ### The links that are changed -/

theorem Chain.congr {next' : α → Option α} (h : Chain next p l)
    (heq : ∀ a ∈ l, next' a = next a) : Chain next' p l := by
  induction l generalizing p with
  | nil => exact h
  | cons a l ih =>
    refine ⟨h.1, ?_⟩
    rw [heq a List.mem_cons_self]
    exact ih h.2 fun b hb => heq b (List.mem_cons_of_mem _ hb)

variable [DecidableEq α]

/-- The links after a node has been put behind the tail. -/
def linkTail (next : α → Option α) (q : Queue α) (a : α) : α → Option α :=
  match q.tail with
  | some t => Function.update (Function.update next a none) t (some a)
  | none => Function.update next a none

/-- The queue after it. -/
def Queue.push (q : Queue α) (a : α) : Queue α where
  head := if q.tail.isSome then q.head else some a
  tail := some a

theorem linkTail_of_ne {b : α} (ha : b ≠ a) (ht : q.tail ≠ some b) :
    linkTail next q a b = next b := by
  unfold linkTail
  cases h : q.tail with
  | none => exact Function.update_of_ne ha _ _
  | some t =>
    have hne : b ≠ t := fun he => ht (by rw [h, he])
    dsimp only
    rw [Function.update_of_ne hne, Function.update_of_ne ha]

/-- A queue that shares no node is left. -/
theorem IsQueue.linkTail {q' : Queue α} {l' : List α} (h : IsQueue next q' l')
    (ha : a ∉ l') (ht : ∀ t ∈ q.tail, t ∉ l') : IsQueue (linkTail next q a) q' l' := by
  refine ⟨h.chain.congr fun b hb => linkTail_of_ne ?_ ?_, h.tail⟩
  · exact fun he => ha (he ▸ hb)
  · exact fun he => ht b he hb

theorem Chain.snoc {t : α} (h : Chain next p (l ++ [t])) (hnd : (l ++ [t]).Nodup)
    (ha : a ∉ l ++ [t]) :
    Chain (Function.update (Function.update next a none) t (some a)) p (l ++ [t] ++ [a]) := by
  induction l generalizing p with
  | nil =>
    have hne : a ≠ t := fun he => ha (by simp [he])
    refine ⟨h.1, Function.update_self .., ?_⟩
    rw [Function.update_of_ne hne]
    exact Function.update_self ..
  | cons b l ih =>
    rw [List.cons_append, List.nodup_cons] at hnd
    rw [List.cons_append, List.mem_cons, not_or] at ha
    have hbt : b ≠ t := fun he => hnd.1 (by simp [he])
    refine ⟨h.1, ?_⟩
    rw [Function.update_of_ne hbt, Function.update_of_ne (Ne.symm ha.1)]
    exact ih h.2 hnd.2 ha.2

/-- **A node is put at the end of the queue.** -/
theorem IsQueue.push (h : IsQueue next q l) (hnd : l.Nodup) (ha : a ∉ l) :
    IsQueue (LinkedQueue.linkTail next q a) (q.push a) (l ++ [a]) := by
  refine ⟨?_, by simp [Queue.push]⟩
  obtain rfl | ⟨l, t, rfl⟩ := l.eq_nil_or_concat'
  · have ht : q.tail = none := h.tail
    unfold Queue.push LinkedQueue.linkTail
    rw [ht]
    exact ⟨rfl, Function.update_self ..⟩
  · have ht : q.tail = some t := by rw [h.tail, List.getLast?_concat]
    unfold Queue.push LinkedQueue.linkTail
    rw [ht]
    exact h.chain.snoc hnd ha

/-! ### Loops over a queue -/

omit [DecidableEq α] in
theorem length_le_of_nodup {n : ℕ} {l : List ℕ} (hnd : l.Nodup) (h : ∀ a ∈ l, a < n) :
    l.length ≤ n := by
  have hsub : l ⊆ List.range n := fun a ha => List.mem_range.mpr (h a ha)
  have := hnd.length_le_of_subset hsub
  rwa [List.length_range] at this

/-- The nodes that a loop comes to. -/
def follow (next : α → Option α) : ℕ → Option α → Option (List α)
  | _, none => some []
  | 0, some _ => none
  | n + 1, some a => (follow next n (next a)).map (a :: ·)

omit [DecidableEq α] in
theorem Chain.follow {n : ℕ} (h : Chain next p l) (hn : l.length ≤ n) :
    follow next n p = some l := by
  induction l generalizing p n with
  | nil =>
    rw [show p = none from h]
    unfold LinkedQueue.follow
    rfl
  | cons a l ih =>
    obtain ⟨n, rfl⟩ := Nat.exists_eq_succ_of_ne_zero (Nat.ne_of_gt (Nat.lt_of_lt_of_le
      (Nat.succ_pos _) hn))
    rw [h.1, LinkedQueue.follow, ih h.2 (Nat.le_of_succ_le_succ hn)]
    rfl

/-- The nodes are freed one after the other; a node still has its link when it has been freed. -/
def freeAll (next : α → Option α) : ℕ → Option α → (α → Bool) → Option (α → Bool)
  | _, none, freed => some freed
  | 0, some _, _ => none
  | n + 1, some a, freed =>
    if freed a then none else freeAll next n (next a) (Function.update freed a true)

theorem Chain.freeAll {n : ℕ} {freed : α → Bool} (h : Chain next p l) (hn : l.length ≤ n)
    (hnd : l.Nodup) (hf : ∀ a ∈ l, freed a = false) :
    ∃ freed', freeAll next n p freed = some freed' ∧
      ∀ a, freed' a = true ↔ freed a = true ∨ a ∈ l := by
  induction l generalizing p n freed with
  | nil =>
    rw [show p = none from h]
    exact ⟨freed, by unfold LinkedQueue.freeAll; rfl, by simp⟩
  | cons a l ih =>
    obtain ⟨n, rfl⟩ := Nat.exists_eq_succ_of_ne_zero (Nat.ne_of_gt (Nat.lt_of_lt_of_le
      (Nat.succ_pos _) hn))
    rw [List.nodup_cons] at hnd
    have hf' : ∀ b ∈ l, Function.update freed a true b = false := fun b hb => by
      have hne : b ≠ a := fun he => hnd.1 (he ▸ hb)
      rw [Function.update_of_ne hne]
      exact hf b (List.mem_cons_of_mem _ hb)
    obtain ⟨freed', hrun, hiff⟩ := ih h.2 (Nat.le_of_succ_le_succ hn) hnd.2 hf'
    refine ⟨freed', ?_, fun b => ?_⟩
    · rw [h.1, LinkedQueue.freeAll, if_neg (by simp [hf a List.mem_cons_self])]
      exact hrun
    · rw [hiff, List.mem_cons]
      by_cases hb : b = a
      · simp [hb]
      · simp [hb]

end ChatShow.Lib.LinkedQueue
