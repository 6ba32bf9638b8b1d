import ChatShow.Antlib.HandlerRuns

/-! # A handler to which nothing is being sent

A thread that has the handler needs no other thread then, and handles all that has been sent. -/

namespace ChatShow.Antlib.HandlerThreads

open ChatShow.Antlib.SqueueThreads (PopPc PushPc popTurn Waits)
open ChatShow.Lib.Runs

/-- The steps of `handler_pop_squeue` that are left, but for the turns of its loops. -/
def rank : PopPc → ℕ
  | .out => 0
  | .add => 5
  | .wait .. => 4
  | .leave .. => 3
  | .free .. => 2
  | .count .. => 1

theorem rank_popTurn {q : SqueueThreads.Squeue} {now : UInt32} {pc : PopPc}
    {r : SqueueThreads.Squeue × PopPc} (h : popTurn q now pc = some r) :
    rank r.2 < rank pc ∨ ∀ now', popTurn q now' pc = some (q, pc) := by
  cases pc with
  | out => cases h
  | add =>
    rw [popTurn, Option.bind_eq_some_iff] at h
    obtain ⟨f, -, hf⟩ := h
    dsimp only at hf
    split_ifs at hf
    cases hf
    exact Or.inl (by simp [rank])
  | wait n i =>
    cases hq : (q.node n).queue i with
    | none => exact Or.inr fun now' => by simp only [popTurn, hq]
    | some v =>
      simp only [popTurn, hq, Option.some.injEq] at h
      rw [← h]
      dsimp only
      split_ifs <;> exact Or.inl (by simp [rank])
  | leave n v =>
    by_cases htail : q.tail = some n
    · exact Or.inr fun now' => if_pos htail
    · rw [popTurn, if_neg htail, Option.map_eq_some_iff] at h
      obtain ⟨f, -, rfl⟩ := h
      exact Or.inl (by simp [rank])
  | free n v =>
    cases h
    exact Or.inl (by simp [rank])
  | count v =>
    cases h
    exact Or.inl (by simp [rank])

variable {ι ω : Type*} [DecidableEq ι] [DecidableEq ω] {g g' : Group ι ω} {w : ω} {n i j : ℕ}
  {count : Int32} {size : UInt32} {node : ℕ → ℕ} {l : List (Group.Label ι ω)}

omit [DecidableEq ι] in
theorem not_waits {s : SqueueThreads.State ι} (h : SqueueThreads.Inv s)
    (halone : ∀ t, s.push t = .out) : ¬ Waits s := by
  intro hwaits
  obtain ⟨chain, vals, done, h⟩ := h
  rcases h.awaited hwaits with ⟨t, v, n, i, -, ht⟩ | ⟨t, n, v, -, -, ht | ⟨m, ht⟩ | ht⟩ <;>
    cases (halone t).symm.trans ht

/-- What a turn of a thread leaves as it is in a queue. -/
structure Same (i : ℕ) (g g' : Group ι ω) : Prop where
  push : (g'.queue i).push = (g.queue i).push
  taken : (g'.queue i).taken = (g.queue i).taken

omit [DecidableEq ι] [DecidableEq ω] in
theorem Same.trans {g₁ g₂ g₃ : Group ι ω} (h : Same i g₁ g₂) (h' : Same i g₂ g₃) : Same i g₁ g₃ :=
  ⟨h'.push.trans h.push, h'.taken.trans h.taken⟩

theorem turn_pop {p : PopPc} {now : UInt32} (hw : g.worker w = .pop n i j count p)
    (h : g.turn w now = some g') : ∃ r, popTurn (g.queue i).squeue now p = some r ∧ Same i g g' ∧
      g'.worker w = .popped n i j count p r.2 ∧ (g'.queue i).popped = (g.queue i).popped ++ p.returns := by
  unfold Group.turn at h
  rw [hw] at h
  obtain ⟨s, hs, rfl⟩ := Option.map_eq_some_iff.mp h
  obtain ⟨r, hr, hrs⟩ := Option.map_eq_some_iff.mp hs
  have hself : (((g.setQueue i { s with pop := .out }).go w (.popped n i j count p s.pop)).queue i) =
      { s with pop := .out } := Function.update_self ..
  refine ⟨r, hr, ⟨?_, ?_⟩, ?_, ?_⟩
  · rw [hself, ← hrs]
    rfl
  · rw [hself, ← hrs]
    rfl
  · rw [← hrs]
    exact Function.update_self ..
  · rw [hself, ← hrs]
    rfl

/-- **`handler_pop_squeue` returns.** -/
theorem Good.pop_returns (h : Good g) (halone : ∀ t, (g.queue i).push t = .out) {p : PopPc}
    (hw : g.worker w = .pop n i j count p) (now : UInt32) :
    ∃ k g' v, run Group.step g (List.replicate k (.turn w now)) = some g' ∧ Good g' ∧ Same i g g' ∧
      g'.worker w = .msg n i j count v ∧ (g'.queue i).popped.length = (g.queue i).popped.length + 1 := by
  induction hr : rank p using Nat.strong_induction_on generalizing g p with
  | _ _ ih =>
    subst hr
    obtain ⟨g₁, h₁, hgood⟩ := h.pop hw now
    obtain ⟨r, hr, hsame, hw₁, hpopped⟩ := turn_pop hw h₁
    by_cases hv : ∃ v, p = .count v
    · obtain ⟨v, rfl⟩ := hv
      refine ⟨1, g₁, v, run_cons_eq h₁ rfl, hgood, hsame, hw₁, ?_⟩
      rw [hpopped]
      exact List.length_append
    · have hp : ∀ v, p ≠ .count v := fun v hv' => hv ⟨v, hv'⟩
      have hret : p.returns = [] := by
        unfold PopPc.returns
        split
        · exact absurd rfl (hp _)
        · rfl
      have hrank : rank r.2 < rank p := by
        refine (rank_popTurn hr).resolve_right fun hstay => ?_
        obtain ⟨o, ho⟩ := h i
        have ho' := ho.owner.eq (show (g.worker w).has = some i by rw [hw]; rfl)
        rw [hw] at ho'
        subst ho'
        refine not_waits ho.queue halone ⟨?_, hstay⟩
        rintro (rfl : p = .out)
        exact ho.busy n j count rfl
      rw [popped_of_ne hp] at hw₁
      obtain ⟨k, g', v, hrun, hgood', hsame', hw', hlen⟩ :=
        ih _ hrank hgood (fun t => (congrFun hsame.push t).trans (halone t)) hw₁ rfl
      refine ⟨k + 1, g', v, run_cons_eq h₁ hrun, hgood', hsame.trans hsame', hw', ?_⟩
      rw [hlen, hpopped, hret, List.append_nil]

/-- The loop of `do_handler` ends, with as many more messages popped as it has still to do. -/
theorem Good.msgs_end (h : Good g) (halone : ∀ t, (g.queue i).push t = .out)
    (hw : g.worker w = .msgs n i j count) (now : UInt32) :
    ∃ k g', run Group.step g (List.replicate k (.turn w now)) = some g' ∧ Good g' ∧ Same i g g' ∧
      g'.worker w = .unlock n i ∧
      (g'.queue i).popped.length = (g.queue i).popped.length + (count.toInt - j).toNat := by
  induction hd : (count.toInt - j).toNat generalizing g j with
  | zero =>
    have hlt : ¬ (j : ℤ) < count.toInt := by omega
    obtain ⟨g₁, h₁, hgood⟩ := h.msgs hw now
    have hturn := h₁
    unfold Group.turn at hturn
    rw [hw] at hturn
    dsimp only at hturn
    rw [if_neg hlt] at hturn
    cases hturn
    exact ⟨1, _, run_cons_eq h₁ rfl, hgood, ⟨rfl, rfl⟩, Function.update_self .., rfl⟩
  | succ d ih =>
    have hlt : (j : ℤ) < count.toInt := by omega
    obtain ⟨g₁, h₁, hgood⟩ := h.msgs hw now
    have hturn := h₁
    unfold Group.turn at hturn
    rw [hw] at hturn
    dsimp only at hturn
    rw [if_pos hlt] at hturn
    obtain ⟨s, -, rfl⟩ := Option.map_eq_some_iff.mp hturn
    obtain ⟨k, g₂, v, hrun, hgood₂, hsame₂, hw₂, hlen₂⟩ :=
      hgood.pop_returns (w := w) halone (Function.update_self ..) now
    obtain ⟨g₃, h₃, hgood₃⟩ := hgood₂.msg hw₂ now
    have hturn := h₃
    unfold Group.turn at hturn
    rw [hw₂] at hturn
    cases hturn
    obtain ⟨k', g', hrun', hgood', hsame', hw', hlen'⟩ := ih hgood₃
      (fun t => (congrFun hsame₂.push t).trans (halone t)) (Function.update_self ..)
      (show (count.toInt - ((j + 1 : ℕ) : ℤ)).toNat = d by omega)
    refine ⟨1 + k + 1 + k', g', ?_, hgood', ⟨hsame'.push.trans hsame₂.push, hsame'.taken.trans hsame₂.taken⟩, hw', ?_⟩
    · rw [List.replicate_add, List.replicate_add, List.replicate_add, List.append_assoc, List.append_assoc]
      refine run_append_some.mpr ⟨_, run_cons_eq h₁ rfl, run_append_some.mpr ⟨g₂, hrun, ?_⟩⟩
      exact run_append_some.mpr ⟨_, run_cons_eq h₃ rfl, hrun'⟩
    · rw [hlen']
      show (g₂.queue i).popped.length + d = _
      rw [hlen₂]
      show (g.queue i).popped.length + 1 + d = _
      omega

/-- A thread has come to the handler 0, to which a message has been sent. -/
def reading : List (Group.Label Unit Unit) :=
  [.send 0 (.push () 5), .send 0 (.pushTurn () 9), .send 0 (.pushTurn () 9), .send 0 (.pushTurn () 9),
    .send 0 (.pushTurn () 9), .call (), .turn () 0, .turn () 0]

end ChatShow.Antlib.HandlerThreads
