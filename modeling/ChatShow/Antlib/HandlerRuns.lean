import ChatShow.Antlib.HandlerTurns

/-! # Runs of a group of handlers

Every interleaving of the threads of a group and of those that send. -/

namespace ChatShow.Antlib.HandlerThreads

open ChatShow.Antlib.SqueueThreads (PopPc PushPc valuesOf)
open ChatShow.Lib.Runs

variable {ι ω : Type*} [DecidableEq ι] [DecidableEq ω] {g g' : Group ι ω} {i : ℕ} {size : UInt32}
  {node : ℕ → ℕ} {l : List (Group.Label ι ω)}

/-! ### The handlers that come to their turns -/

/-- The handler of the `k`-th turn. -/
def handlerOf (size : UInt32) (k : ℕ) : ℕ := (UInt32.ofNat k % size).toNat

/-- The turns that have been taken, and `_index`. -/
structure Polled (g : Group ι ω) (size : UInt32) : Prop where
  sized : g.size = size
  index : g.index = UInt32.ofNat g.polled.length
  polled : ∀ k < g.polled.length, g.polled[k]? = some (handlerOf size k)

omit [DecidableEq ι] in
theorem Polled.take (h : Polled g size) (w : ω) (pc : WorkerPc) :
    Polled (({ g with index := g.index + 1, polled := g.polled ++ [(g.index % g.size).toNat] } :
      Group ι ω).go w pc) size where
  sized := h.sized
  index := by
    show g.index + 1 = UInt32.ofNat (g.polled ++ [_]).length
    rw [List.length_append, List.length_singleton, UInt32.ofNat_add, ← h.index]
    rfl
  polled k hk := by
    show (g.polled ++ [(g.index % g.size).toNat])[k]? = _
    have hk : k < (g.polled ++ [(g.index % g.size).toNat]).length := hk
    rw [List.length_append, List.length_singleton] at hk
    rcases Nat.lt_succ_iff_lt_or_eq.mp hk with hk | rfl
    · rw [List.getElem?_append_left hk]
      exact h.polled k hk
    · rw [List.getElem?_concat_length, h.sized, h.index, handlerOf]

omit [DecidableEq ι] [DecidableEq ω] in
theorem Polled.frame (h : Polled g size) (hsize : g'.size = g.size) (hindex : g'.index = g.index)
    (hpolled : g'.polled = g.polled) : Polled g' size where
  sized := hsize.trans h.sized
  index := by rw [hindex, hpolled, h.index]
  polled := by
    rw [hpolled]
    exact h.polled

theorem Polled.step {a : Group.Label ι ω} (h : Polled g size) (hs : g.step a = some g') :
    Polled g' size := by
  cases a with
  | send k a =>
    obtain ⟨s, -, rfl⟩ := Option.map_eq_some_iff.mp hs
    exact h.frame rfl rfl rfl
  | call w =>
    unfold Group.step at hs
    dsimp only at hs
    split_ifs at hs
    cases hs
    exact h.frame rfl rfl rfl
  | turn w now =>
    have hs : g.turn w now = some g' := hs
    unfold Group.turn at hs
    cases hpc : g.worker w <;> rw [hpc] at hs <;> dsimp only at hs
    case out => cases hs
    case turn n =>
      split_ifs at hs
      · cases hs
        exact h.take w _
      · cases hs
        exact h.frame rfl rfl rfl
    case msgs =>
      split_ifs at hs
      · obtain ⟨s, -, rfl⟩ := Option.map_eq_some_iff.mp hs
        exact h.frame rfl rfl rfl
      · cases hs
        exact h.frame rfl rfl rfl
    case pop =>
      obtain ⟨s, -, rfl⟩ := Option.map_eq_some_iff.mp hs
      exact h.frame rfl rfl rfl
    all_goals
      cases hs
      exact h.frame rfl rfl rfl

/-! ### A step -/

theorem Good.step {a : Group.Label ι ω} (h : Good g) (hp : Polled g size) (hsize : size ≠ 0)
    (hok : g.Ok a) : ∃ g', g.step a = some g' ∧ Good g' ∧ Polled g' size := by
  suffices hs : ∃ g', g.step a = some g' ∧ Good g' by
    obtain ⟨g', hs, h'⟩ := hs
    exact ⟨g', hs, h', hp.step hs⟩
  cases a with
  | send k a => exact h.send hok.1 hok.2
  | call w =>
    refine ⟨g.go w (.turn 0), if_pos hok, h.free rfl ?_ rfl rfl rfl rfl⟩
    rw [show g.worker w = .out from hok]
    rfl
  | turn w now =>
    cases hpc : g.worker w with
    | out => exact absurd hpc hok
    | turn n =>
      have hhas : (g.worker w).has = none := by
        rw [hpc]
        rfl
      show ∃ g', g.turn w now = some g' ∧ Good g'
      unfold Group.turn
      rw [hpc]
      dsimp only
      rw [if_neg (show g.size ≠ 0 from hp.sized ▸ hsize)]
      split_ifs
      · exact ⟨_, rfl, h.free rfl hhas rfl rfl rfl rfl⟩
      · exact ⟨_, rfl, h.free rfl hhas rfl rfl rfl rfl⟩
    | lock n i => exact h.lock hpc now
    | read n i => exact h.read hpc now
    | msgs n i j count => exact h.msgs hpc now
    | pop n i j count p => exact h.pop hpc now
    | msg n i j count v => exact h.msg hpc now
    | unlock n i => exact h.unlock hpc now

theorem run_good (hsize : size ≠ 0) (hok : Along Group.step Group.Ok (.init size node) l) :
    ∃ g, run Group.step (.init size node) l = some g ∧ Good g ∧ Polled g size := by
  have hpolled : Polled (Group.init size node : Group ι ω) size :=
    ⟨rfl, rfl, fun k hk => absurd hk (Nat.not_lt_zero k)⟩
  exact run_total_along (fun _ _ h hg => h.1.step h.2 hsize hg) hok
    ⟨fun i => ⟨.out, served_init size node i⟩, hpolled⟩

/-! ### The messages -/

/-- The calls of `send_handler_msg` to the handler `i`. -/
def sent (i : ℕ) : Group.Label ι ω → List (ι × ℕ)
  | .send k a => if k = i then a.called else []
  | _ => []

theorem valuesOf_step {a : Group.Label ι ω} (h : g.step a = some g') (i : ℕ) (t : ι) :
    valuesOf (g.queue i).taken t ++ ((g.queue i).push t).asks ++ valuesOf (sent i a) t =
      valuesOf (g'.queue i).taken t ++ ((g'.queue i).push t).asks := by
  have hsame : g'.queue = g.queue → sent i a = [] → valuesOf (g.queue i).taken t ++
      ((g.queue i).push t).asks ++ valuesOf (sent i a) t =
        valuesOf (g'.queue i).taken t ++ ((g'.queue i).push t).asks := by
    intro hq hnil
    rw [hq, hnil]
    exact List.append_nil _
  cases a with
  | send k a =>
    obtain ⟨s, hs, rfl⟩ := Option.map_eq_some_iff.mp h
    show _ ++ valuesOf (if k = i then a.called else []) t = valuesOf (Function.update g.queue k s i).taken t ++
      ((Function.update g.queue k s i).push t).asks
    rcases eq_or_ne i k with rfl | hne
    · rw [if_pos rfl, Function.update_self]
      exact SqueueThreads.valuesOf_step hs t
    · rw [if_neg hne.symm, Function.update_of_ne hne]
      exact List.append_nil _
  | call w =>
    unfold Group.step at h
    dsimp only at h
    split_ifs at h
    cases h
    exact hsame rfl rfl
  | turn w now =>
    have h : g.turn w now = some g' := h
    unfold Group.turn at h
    cases hpc : g.worker w <;> rw [hpc] at h <;> dsimp only at h
    case out => cases h
    case turn n =>
      split_ifs at h <;> cases h <;> exact hsame rfl rfl
    case msgs =>
      split_ifs at h
      · obtain ⟨s, -, rfl⟩ := Option.map_eq_some_iff.mp h
        exact hsame rfl rfl
      · cases h
        exact hsame rfl rfl
    case pop n k j count p =>
      obtain ⟨s, hs, rfl⟩ := Option.map_eq_some_iff.mp h
      show _ ++ valuesOf [] t = valuesOf (Function.update g.queue k { s with pop := .out } i).taken t ++
        ((Function.update g.queue k { s with pop := .out } i).push t).asks
      rcases eq_or_ne i k with rfl | hne
      · rw [Function.update_self]
        exact SqueueThreads.valuesOf_step hs t
      · rw [Function.update_of_ne hne]
        exact List.append_nil _
    all_goals
      cases h
      exact hsame rfl rfl

theorem valuesOf_run (h : run Group.step g l = some g') (i : ℕ) (t : ι) :
    valuesOf (g.queue i).taken t ++ ((g.queue i).push t).asks ++ valuesOf (l.flatMap (sent i)) t =
      valuesOf (g'.queue i).taken t ++ ((g'.queue i).push t).asks := by
  induction l generalizing g with
  | nil =>
    cases h
    exact List.append_nil _
  | cons a l ih =>
    obtain ⟨g₁, h₁, h₂⟩ := run_cons_some.mp h
    rw [List.flatMap_cons, SqueueThreads.valuesOf_append, ← List.append_assoc, valuesOf_step h₁, ih h₂]

instance (a : SqueueThreads.Label ι) : Decidable (Group.IsPush a) := by
  unfold Group.IsPush
  split <;> infer_instance

instance [Fintype ι] (g : Group ι ω) : DecidablePred g.Ok
  | .send i a => inferInstanceAs (Decidable (Group.IsPush a ∧ SqueueThreads.Ok (g.queue i) a))
  | .call w => inferInstanceAs (Decidable (g.worker w = .out))
  | .turn w _ => inferInstanceAs (Decidable (g.worker w ≠ .out))

/-- A message is sent to the handler 1, and one of two threads handles it. -/
def oneMessage : List (Group.Label Unit Bool) :=
  [.send 1 (.push () 5), .send 1 (.pushTurn () 9), .send 1 (.pushTurn () 9), .send 1 (.pushTurn () 9),
    .send 1 (.pushTurn () 9), .call false, .call true, .turn false 0, .turn true 0, .turn false 0,
    .turn true 0, .turn true 0, .turn true 0, .turn true 0, .turn false 0, .turn false 0, .turn true 0,
    .turn true 0, .turn false 0, .turn false 0, .turn true 0]

example : (run Group.step (.init 2 id) oneMessage).map
    (fun g => (g.handled 1, g.worker false, g.worker true)) = some ([5], .lock 2 0, .msgs 1 1 1 1) := by
  decide

/-- **No two threads are in `do_handler` of a handler at a time**, and its `_locker` is 0 just where none
is. -/
theorem one_worker (hsize : size ≠ 0) (hok : Along Group.step Group.Ok (.init size node) l)
    (h : run Group.step (.init size node) l = some g) (i : ℕ) :
    (∀ w w', (g.worker w).has = some i → (g.worker w').has = some i → w = w') ∧
      (g.locker i = 0 ↔ ∀ w, (g.worker w).has ≠ some i) := by
  obtain ⟨g', h', hgood, -⟩ := run_good hsize hok
  cases h.symm.trans h'
  obtain ⟨o, ho⟩ := hgood i
  rcases ho.owner with ⟨u, hu, hhas, hone⟩ | ⟨hout, hnone⟩
  · refine ⟨fun w w' hw hw' => (hone w hw).trans (hone w' hw').symm, iff_of_false ?_ fun hno => ?_⟩
    · rw [ho.locker]
      rintro rfl
      cases hhas
    · rw [← hu] at hhas
      exact hno u hhas
  · exact ⟨fun w _ hw => absurd hw (hnone w), iff_of_true (ho.locker.mpr hout) hnone⟩

theorem one_worker_one : Along Group.step Group.Ok (.init 2 id) oneMessage ∧
    ∃ g, run Group.step (.init 2 id) oneMessage = some g ∧
      (∀ w w', (g.worker w).has = some 1 → (g.worker w').has = some 1 → w = w') ∧
        (g.locker 1 = 0 ↔ ∀ w, (g.worker w).has ≠ some 1) :=
  have hok : Along Group.step Group.Ok (.init 2 id) oneMessage := by decide
  ⟨hok, _, rfl, one_worker (by decide) hok rfl 1⟩

theorem handlerOf_eq (k : ℕ) : handlerOf size k = k % 2 ^ 32 % size.toNat := by
  rw [handlerOf, UInt32.toNat_mod, UInt32.toNat_ofNat']

/-- Where the index comes to 0 again, the turns before it and behind it may both miss handlers. -/
theorem exists_handlerOf (hi : i < size.toNat) (k : ℕ) :
    ∃ m, k ≤ m ∧ m < k + (2 * size.toNat - 1) ∧ handlerOf size m = i := by
  have hlt := size.toNat_lt
  have hmod := Nat.mod_lt k (Nat.two_pow_pos 32)
  have hdiv := Nat.div_add_mod k (2 ^ 32)
  by_cases hwrap : k % 2 ^ 32 + size.toNat ≤ 2 ^ 32
  · obtain ⟨d, hd, he⟩ : ∃ d < size.toNat, (k % 2 ^ 32 + d) % size.toNat = i := by
      have hr := Nat.mod_lt (k % 2 ^ 32) (Nat.zero_lt_of_lt hi)
      rcases Nat.lt_or_ge i (k % 2 ^ 32 % size.toNat) with hlt' | hge
      · refine ⟨i + size.toNat - k % 2 ^ 32 % size.toNat, by omega, ?_⟩
        rw [← Nat.mod_add_mod, Nat.add_sub_of_le (by omega), Nat.add_mod_right, Nat.mod_eq_of_lt hi]
      · refine ⟨i - k % 2 ^ 32 % size.toNat, by omega, ?_⟩
        rw [← Nat.mod_add_mod, Nat.add_sub_of_le hge, Nat.mod_eq_of_lt hi]
    refine ⟨k + d, by omega, by omega, ?_⟩
    have hsum : (k + d) % 2 ^ 32 = k % 2 ^ 32 + d := by
      rw [← Nat.mod_add_mod]
      exact Nat.mod_eq_of_lt (by omega)
    rw [handlerOf_eq, hsum, he]
  · refine ⟨k + (2 ^ 32 - k % 2 ^ 32) + i, by omega, by omega, ?_⟩
    have hsum : (k + (2 ^ 32 - k % 2 ^ 32) + i) % 2 ^ 32 = i := by
      have hround : k + (2 ^ 32 - k % 2 ^ 32) = 2 ^ 32 * (k / 2 ^ 32 + 1) := by omega
      rw [hround, Nat.mul_add_mod]
      exact Nat.mod_eq_of_lt (by omega)
    rw [handlerOf_eq, hsum, Nat.mod_eq_of_lt hi]

/-- **No handler is left out**: of `2 * size - 1` turns one behind the other, of whichever threads, one is
at the handler, also where `_index` comes to 0 again. -/
theorem polled_within (hsize : size ≠ 0) (hok : Along Group.step Group.Ok (.init size node) l)
    (h : run Group.step (.init size node) l = some g) (hi : i < size.toNat) {k : ℕ}
    (hk : k + (2 * size.toNat - 1) ≤ g.polled.length) :
    ∃ m, k ≤ m ∧ m < k + (2 * size.toNat - 1) ∧ g.polled[m]? = some i := by
  obtain ⟨g', h', -, hpolled⟩ := run_good hsize hok
  cases h.symm.trans h'
  obtain ⟨m, hle, hlt, hm⟩ := exists_handlerOf hi k
  exact ⟨m, hle, hlt, by rw [hpolled.polled m (by omega), hm]⟩

theorem polled_within_one : Along Group.step Group.Ok (.init 2 id) oneMessage ∧
    ∃ g, run Group.step (.init 2 id) oneMessage = some g ∧
      ∃ m, 0 ≤ m ∧ m < 0 + (2 * (2 : UInt32).toNat - 1) ∧ g.polled[m]? = some 1 :=
  have hok : Along Group.step Group.Ok (.init 2 id) oneMessage := by decide
  ⟨hok, _, rfl, polled_within (by decide) hok rfl (by decide) (by decide)⟩

end ChatShow.Antlib.HandlerThreads
