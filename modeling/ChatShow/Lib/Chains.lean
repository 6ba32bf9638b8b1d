import Mathlib.Data.List.Nodup
import Mathlib.Logic.Function.Basic
import Mathlib.Tactic.Common

/-! # Chains of cells

A heap has cells with a value and a link; a cell that has been freed is not in it. `IsChain m p l` says
that the links from the pointer `p` on lead through the cells `l`. The loops over a chain look for a
value (`seek`), take out the first that meets a condition (`remove`), or all that an action wants out
(`sweep`), where the first cell has no cell in front and is treated apart. They do to the list what
`find?`, `eraseP` and `sift` do, and free the cells that they take out (`Frees`). `none` is a loop that
has more turns than it gets, or goes through a cell that is not there. -/

namespace ChatShow.Lib.Chains

structure Cell (α : Type*) where
  val : α
  next : Option ℕ

abbrev Heap (α : Type*) := ℕ → Option (Cell α)

variable {α β γ D : Type*} {m m' m'' : Heap α} {p : Option ℕ} {l l' l'' : List (ℕ × α)} {x y : ℕ × α} {n : ℕ}

def IsChain (m : Heap α) : Option ℕ → List (ℕ × α) → Prop
  | p, [] => p = none
  | p, x :: l => p = some x.1 ∧ ∃ q, m x.1 = some ⟨x.2, q⟩ ∧ IsChain m q l

/-- The addresses of the cells. -/
abbrev addrs (l : List (ℕ × α)) : List ℕ := l.map Prod.fst

/-- The heap has been changed at the cells of `l` only, and those that are not in `l'` have been freed. -/
structure Frees (m m' : Heap α) (l l' : List (ℕ × α)) : Prop where
  other : ∀ a ∉ addrs l, m' a = m a
  freed : ∀ a ∈ addrs l, a ∉ addrs l' → m' a = none

theorem IsChain.congr (h : IsChain m p l) (heq : ∀ a ∈ addrs l, m' a = m a) : IsChain m' p l := by
  induction l generalizing p with
  | nil => exact h
  | cons x l ih =>
    obtain ⟨hp, q, hx, hl⟩ := h
    refine ⟨hp, q, ?_, ih hl fun a ha => heq a (List.mem_cons_of_mem _ ha)⟩
    rw [heq x.1 List.mem_cons_self]
    exact hx

theorem IsChain.exists_cell (h : IsChain m p l) (hx : x ∈ l) : ∃ q, m x.1 = some ⟨x.2, q⟩ := by
  induction l generalizing p with
  | nil => cases hx
  | cons y l ih =>
    obtain ⟨-, q, hy, hl⟩ := h
    obtain rfl | hx := List.mem_cons.mp hx
    · exact ⟨q, hy⟩
    · exact ih hl hx

/-- A cell is put in front. -/
theorem IsChain.push (h : IsChain m p l) (hx : x.1 ∉ addrs l) :
    IsChain (Function.update m x.1 (some ⟨x.2, p⟩)) (some x.1) (x :: l) := by
  refine ⟨rfl, p, Function.update_self .., h.congr fun a ha => ?_⟩
  have hne : a ≠ x.1 := fun he => hx (he ▸ ha)
  exact Function.update_of_ne hne ..

theorem Frees.refl (m : Heap α) (l : List (ℕ × α)) : Frees m m l l :=
  ⟨fun _ _ => rfl, fun _ ha hn => absurd ha hn⟩

theorem Frees.trans (h : Frees m m' l l') (h' : Frees m' m'' l' l'') (hsub : addrs l' ⊆ addrs l) :
    Frees m m'' l l'' where
  other a ha := (h'.other a fun ha' => ha (hsub ha')).trans (h.other a ha)
  freed a ha hn := by
    by_cases ha' : a ∈ addrs l'
    · exact h'.freed a ha' hn
    · exact (h'.other a ha').trans (h.freed a ha ha')

/-- A cell in front stays. -/
theorem Frees.cons (h : Frees m m' l l') : Frees m m' (x :: l) (x :: l') where
  other a ha := h.other a fun hmem => ha (List.mem_cons_of_mem _ hmem)
  freed a ha hn :=
    h.freed a ((List.mem_cons.mp ha).resolve_left fun he => hn (he ▸ List.mem_cons_self))
      fun hmem => hn (List.mem_cons_of_mem _ hmem)

/-! ### Looking for a value -/

def seek (m : Heap α) (f : α → Bool) : ℕ → Option ℕ → Option (Option α)
  | _, none => some none
  | 0, some _ => none
  | n + 1, some a => (m a).bind fun c => if f c.val then some (some c.val) else seek m f n c.next

theorem IsChain.seek (h : IsChain m p l) (f : α → Bool) (hn : l.length ≤ n) :
    seek m f n p = some ((l.map Prod.snd).find? f) := by
  induction l generalizing p n with
  | nil =>
    rw [show p = none from h]
    unfold Chains.seek
    rfl
  | cons x l ih =>
    obtain ⟨rfl, q, hx, hl⟩ := h
    obtain ⟨n, rfl⟩ := Nat.exists_eq_succ_of_ne_zero (Nat.ne_of_gt (Nat.lt_of_lt_of_le
      (Nat.succ_pos _) hn))
    rw [Chains.seek, hx, Option.bind_some, List.map_cons, List.find?_cons]
    cases hf : f x.2 with
    | true => rfl
    | false => exact ih hl (Nat.le_of_succ_le_succ hn)

/-- The values of a chain. -/
def walk (m : Heap α) : ℕ → Option ℕ → Option (List α)
  | _, none => some []
  | 0, some _ => none
  | n + 1, some a => (m a).bind fun c => (walk m n c.next).map (c.val :: ·)

theorem IsChain.walk (h : IsChain m p l) (hn : l.length ≤ n) : walk m n p = some (l.map Prod.snd) := by
  induction l generalizing p n with
  | nil =>
    rw [show p = none from h]
    unfold Chains.walk
    rfl
  | cons x l ih =>
    obtain ⟨rfl, q, hx, hl⟩ := h
    obtain ⟨n, rfl⟩ := Nat.exists_eq_succ_of_ne_zero (Nat.ne_of_gt (Nat.lt_of_lt_of_le
      (Nat.succ_pos _) hn))
    rw [Chains.walk, hx, Option.bind_some, ih hl (Nat.le_of_succ_le_succ hn)]
    rfl

/-! ### Cells are taken out -/

/-- The cell `b`, whose link is `q`, is taken out behind the cell `a` of the value `v`. -/
def unlink (m : Heap α) (a : ℕ) (v : α) (b : ℕ) (q : Option ℕ) : Heap α :=
  Function.update (Function.update m a (some ⟨v, q⟩)) b none

theorem IsChain.unlink {q : Option ℕ} (hl : IsChain m q l) (hnd : (addrs (x :: y :: l)).Nodup) :
    IsChain (unlink m x.1 x.2 y.1 q) (some x.1) (x :: l) ∧
      Frees m (Chains.unlink m x.1 x.2 y.1 q) (x :: y :: l) (x :: l) := by
  obtain ⟨hx, hy, -⟩ : x.1 ∉ addrs (y :: l) ∧ y.1 ∉ addrs l ∧ (addrs l).Nodup := by
    simpa only [addrs, List.map_cons, List.nodup_cons] using hnd
  have hxy : x.1 ≠ y.1 := fun he => hx (he ▸ List.mem_cons_self)
  have hother : ∀ a, a ≠ x.1 → a ≠ y.1 → Chains.unlink m x.1 x.2 y.1 q a = m a := fun a hax hay =>
    (Function.update_of_ne hay ..).trans (Function.update_of_ne hax ..)
  refine ⟨⟨rfl, q, ?_, hl.congr fun a ha => ?_⟩, fun a ha => ?_, fun a ha hn => ?_⟩
  · exact (Function.update_of_ne hxy ..).trans (Function.update_self ..)
  · exact hother a (fun he => hx (he ▸ List.mem_cons_of_mem _ ha)) fun he => hy (he ▸ ha)
  · exact hother a (fun he => ha (he ▸ List.mem_cons_self))
      fun he => ha (he ▸ List.mem_cons_of_mem _ List.mem_cons_self)
  · have hay : a = y.1 := by
      obtain rfl | ha := List.mem_cons.mp ha
      · exact absurd List.mem_cons_self hn
      · exact (List.mem_cons.mp ha).resolve_right fun hmem => hn (List.mem_cons_of_mem _ hmem)
    rw [hay]
    exact Function.update_self ..

/-- The first cell is taken out. -/
theorem IsChain.free (h : IsChain m p (x :: l)) (hnd : (addrs (x :: l)).Nodup) :
    ∃ q, m x.1 = some ⟨x.2, q⟩ ∧ IsChain (Function.update m x.1 none) q l ∧
      Frees m (Function.update m x.1 none) (x :: l) l := by
  obtain ⟨-, q, hx, hl⟩ := h
  have hxl : x.1 ∉ addrs l := (List.nodup_cons.mp hnd).1
  have hother : ∀ a ≠ x.1, Function.update m x.1 none a = m a := fun a ha => Function.update_of_ne ha ..
  refine ⟨q, hx, hl.congr fun a ha => hother a fun he => hxl (he ▸ ha), ?_, fun a ha hn => ?_⟩
  · exact fun a ha => hother a fun he => ha (he ▸ List.mem_cons_self)
  · rw [(List.mem_cons.mp ha).resolve_right hn]
    exact Function.update_self ..

/-- The loop of `remove` behind a cell. -/
def removeBehind (f : α → Bool) : ℕ → Heap α → ℕ → Option (Option α × Heap α)
  | 0, _, _ => none
  | n + 1, m, a => (m a).bind fun c =>
    match c.next with
    | none => some (none, m)
    | some b => (m b).bind fun d =>
      if f d.val then some (some d.val, unlink m a c.val b d.next) else removeBehind f n m b

/-- The first cell whose value meets a condition is taken out: its value, the heap, and the pointer to
the chain. -/
def remove (f : α → Bool) (n : ℕ) (m : Heap α) : Option ℕ → Option (Option α × Heap α × Option ℕ)
  | none => some (none, m, none)
  | some a => (m a).bind fun c =>
    if f c.val then some (some c.val, Function.update m a none, c.next)
    else (removeBehind f n m a).map fun r => (r.1, r.2, some a)

theorem IsChain.removeBehind (h : IsChain m (some x.1) (x :: l)) (hnd : (addrs (x :: l)).Nodup)
    (f : α → Bool) (hn : l.length < n) :
    ∃ m', removeBehind f n m x.1 = some ((l.map Prod.snd).find? f, m') ∧
      IsChain m' (some x.1) (x :: l.eraseP fun y => f y.2) ∧
      Frees m m' (x :: l) (x :: l.eraseP fun y => f y.2) := by
  induction l generalizing x n with
  | nil =>
    obtain ⟨n, rfl⟩ := Nat.exists_eq_succ_of_ne_zero (Nat.ne_of_gt hn)
    obtain ⟨-, q, hx, rfl⟩ := id h
    refine ⟨m, ?_, h, Frees.refl m _⟩
    rw [Chains.removeBehind, hx]
    rfl
  | cons y l ih =>
    obtain ⟨n, rfl⟩ := Nat.exists_eq_succ_of_ne_zero (Nat.ne_of_gt (Nat.lt_trans (Nat.succ_pos _) hn))
    obtain ⟨-, q, hx, hyl⟩ := h
    obtain ⟨rfl, q', hy, hl⟩ := id hyl
    rw [Chains.removeBehind, hx, Option.bind_some, List.map_cons, List.find?_cons, List.eraseP_cons]
    dsimp only
    rw [hy, Option.bind_some]
    cases hf : f y.2 with
    | true =>
      obtain ⟨hchain, hfrees⟩ := hl.unlink hnd
      exact ⟨_, rfl, hchain, hfrees⟩
    | false =>
      obtain ⟨hxy, hnd'⟩ := List.nodup_cons.mp hnd
      obtain ⟨m', hrun, hchain, hfrees⟩ := ih hyl hnd' (Nat.lt_of_succ_lt_succ hn)
      refine ⟨m', ?_, ⟨rfl, _, ?_, hchain⟩, hfrees.cons⟩
      · rw [if_neg Bool.false_ne_true]
        exact hrun
      · rw [hfrees.other x.1 hxy]
        exact hx

/-- **`remove` gives the first value that meets the condition, and takes its cell out.** -/
theorem IsChain.remove (h : IsChain m p l) (hnd : (addrs l).Nodup) (f : α → Bool)
    (hn : l.length ≤ n) :
    ∃ m' p', remove f n m p = some ((l.map Prod.snd).find? f, m', p') ∧
      IsChain m' p' (l.eraseP fun y => f y.2) ∧ Frees m m' l (l.eraseP fun y => f y.2) := by
  cases l with
  | nil =>
    rw [show p = none from h]
    exact ⟨m, none, rfl, rfl, Frees.refl m []⟩
  | cons x l =>
    obtain ⟨q, hx, hchain, hfrees⟩ := h.free hnd
    obtain ⟨rfl, -⟩ := id h
    rw [Chains.remove, hx, Option.bind_some, List.map_cons, List.find?_cons, List.eraseP_cons]
    cases hf : f x.2 with
    | true => exact ⟨_, _, rfl, hchain, hfrees⟩
    | false =>
      obtain ⟨m', hrun, hchain, hfrees⟩ := h.removeBehind hnd f hn
      refine ⟨m', some x.1, ?_, hchain, hfrees⟩
      rw [if_neg Bool.false_ne_true, hrun]
      rfl

/-! ### A sweep -/

/-- An action goes over a list and has a state; it says of each element whether it is to go. -/
def sift (act : β → D → Bool × D) : List β → D → List β × D
  | [], d => ([], d)
  | x :: l, d =>
    let s := sift act l (act x d).2
    (if (act x d).1 then s.1 else x :: s.1, s.2)

/-- The action wants nothing out. -/
def Spares (act : β → D → Bool × D) : List β → D → Prop
  | [], _ => True
  | x :: l, d => (act x d).1 = false ∧ Spares act l (act x d).2

theorem sift_append (act : β → D → Bool × D) (l l' : List β) (d : D) :
    sift act (l ++ l') d =
      ((sift act l d).1 ++ (sift act l' (sift act l d).2).1, (sift act l' (sift act l d).2).2) := by
  induction l generalizing d with
  | nil => rfl
  | cons x l ih =>
    rw [List.cons_append, sift, ih, sift]
    split_ifs <;> rfl

theorem sift_map (act : γ → D → Bool × D) (f : β → γ) (l : List β) (d : D) :
    sift act (l.map f) d =
      ((sift (fun x => act (f x)) l d).1.map f, (sift (fun x => act (f x)) l d).2) := by
  induction l generalizing d with
  | nil => rfl
  | cons x l ih =>
    rw [List.map_cons, sift, ih, sift]
    split_ifs <;> rfl

theorem sift_sublist (act : β → D → Bool × D) (l : List β) (d : D) : (sift act l d).1.Sublist l := by
  induction l generalizing d with
  | nil => exact List.Sublist.refl []
  | cons x l ih =>
    unfold sift
    dsimp only
    split_ifs
    · exact (ih _).trans (List.sublist_cons_self x l)
    · exact (ih _).cons_cons x

theorem length_sift (act : β → D → Bool × D) (l : List β) (d : D) :
    (sift act l d).1.length = l.length ↔ Spares act l d := by
  induction l generalizing d with
  | nil => exact iff_of_true rfl trivial
  | cons x l ih =>
    have hle := (sift_sublist act l (act x d).2).length_le
    unfold sift Spares
    rw [← ih]
    dsimp only
    cases (act x d).1 with
    | true => simp only [if_true, List.length_cons, Bool.true_eq_false, false_and, iff_false]; omega
    | false => simp

/-- The loop of `sweep` behind a cell. -/
def sweepBehind (act : α → D → Bool × D) : ℕ → Heap α → ℕ → D → Option (Heap α × D)
  | 0, _, _, _ => none
  | n + 1, m, a, d => (m a).bind fun c =>
    match c.next with
    | none => some (m, d)
    | some b => (m b).bind fun e =>
      let r := act e.val d
      if r.1 then sweepBehind act n (unlink m a c.val b e.next) a r.2 else sweepBehind act n m b r.2

/-- The action goes over the chain, to the first cell last, and the cells that it wants out are taken
out: the heap, the pointer to the chain, and the state of the action. -/
def sweep (act : α → D → Bool × D) (n : ℕ) (m : Heap α) (p : Option ℕ) (d : D) :
    Option (Heap α × Option ℕ × D) :=
  match p with
  | none => some (m, none, d)
  | some a => (sweepBehind act n m a d).bind fun s => (s.1 a).bind fun c =>
    let r := act c.val s.2
    if r.1 then some (Function.update s.1 a none, c.next, r.2) else some (s.1, some a, r.2)

/-- The order in which `sweep` goes over a list. -/
def headLast : List β → List β
  | [] => []
  | x :: l => l ++ [x]

theorem headLast_perm (l : List β) : (headLast l).Perm l := by
  cases l with
  | nil => exact List.Perm.refl []
  | cons x l => exact List.perm_append_singleton x l

theorem IsChain.sweepBehind (h : IsChain m (some x.1) (x :: l)) (hnd : (addrs (x :: l)).Nodup)
    (act : α → D → Bool × D) (d : D) (hn : l.length < n) :
    ∃ m', sweepBehind act n m x.1 d = some (m', (sift (fun y => act y.2) l d).2) ∧
      IsChain m' (some x.1) (x :: (sift (fun y => act y.2) l d).1) ∧
      Frees m m' (x :: l) (x :: (sift (fun y => act y.2) l d).1) := by
  induction l generalizing x n m d with
  | nil =>
    obtain ⟨n, rfl⟩ := Nat.exists_eq_succ_of_ne_zero (Nat.ne_of_gt hn)
    obtain ⟨-, q, hx, rfl⟩ := id h
    refine ⟨m, ?_, h, Frees.refl m _⟩
    rw [Chains.sweepBehind, hx]
    rfl
  | cons y l ih =>
    obtain ⟨n, rfl⟩ := Nat.exists_eq_succ_of_ne_zero (Nat.ne_of_gt (Nat.lt_trans (Nat.succ_pos _) hn))
    obtain ⟨-, q, hx, hyl⟩ := h
    obtain ⟨rfl, q', hy, hl⟩ := id hyl
    obtain ⟨hxy, hnd'⟩ := List.nodup_cons.mp hnd
    rw [Chains.sweepBehind, hx, Option.bind_some, sift]
    dsimp only
    rw [hy, Option.bind_some]
    have hn' := Nat.lt_of_succ_lt_succ hn
    cases hr : (act y.2 d).1 with
    | true =>
      obtain ⟨hchain, hfrees⟩ := hl.unlink hnd
      have hsub : addrs (x :: l) ⊆ addrs (x :: y :: l) :=
        List.cons_subset_cons _ (List.subset_cons_self _ _)
      have hnd'' : (addrs (x :: l)).Nodup :=
        hnd.sublist ((List.sublist_cons_self _ _).cons_cons _)
      obtain ⟨m', hrun, hchain', hfrees'⟩ := ih hchain hnd'' (act y.2 d).2 hn'
      refine ⟨m', ?_, hchain', hfrees.trans hfrees' hsub⟩
      rw [if_pos rfl]
      exact hrun
    | false =>
      obtain ⟨m', hrun, hchain, hfrees⟩ := ih hyl hnd' (act y.2 d).2 hn'
      refine ⟨m', ?_, ⟨rfl, _, ?_, hchain⟩, hfrees.cons⟩
      · rw [if_neg Bool.false_ne_true]
        exact hrun
      · rw [hfrees.other x.1 hxy]
        exact hx

/-- **`sweep` takes out what the action wants out, which goes to each value once.** -/
theorem IsChain.sweep (h : IsChain m p l) (hnd : (addrs l).Nodup) (act : α → D → Bool × D) (d : D)
    (hn : l.length ≤ n) :
    ∃ m' p' l', sweep act n m p d = some (m', p', (sift (fun y => act y.2) (headLast l) d).2) ∧
      IsChain m' p' l' ∧ l'.Perm (sift (fun y => act y.2) (headLast l) d).1 ∧ Frees m m' l l' := by
  cases l with
  | nil =>
    rw [show p = none from h]
    exact ⟨m, none, [], rfl, rfl, List.Perm.refl [], Frees.refl m []⟩
  | cons x l =>
    obtain ⟨rfl, -⟩ := id h
    obtain ⟨m', hrun, hchain, hfrees⟩ := h.sweepBehind hnd act d hn
    have hsub := sift_sublist (fun y : ℕ × α => act y.2) l d
    have hnd' : (addrs (x :: (sift (fun y : ℕ × α => act y.2) l d).1)).Nodup :=
      hnd.sublist ((hsub.cons_cons x).map Prod.fst)
    obtain ⟨q, hx, hrest, hfree⟩ := hchain.free hnd'
    rw [Chains.sweep, hrun, Option.bind_some, headLast, sift_append]
    dsimp only [sift]
    rw [hx, Option.bind_some]
    dsimp only
    cases hr : (act x.2 (sift (fun y => act y.2) l d).2).1 with
    | true =>
      refine ⟨_, _, _, rfl, hrest, ?_, hfrees.trans hfree fun a ha => ?_⟩
      · rw [if_pos rfl, List.append_nil]
      · exact ((hsub.cons_cons x).map Prod.fst).subset ha
    | false =>
      refine ⟨m', some x.1, _, rfl, hchain, ?_, hfrees⟩
      rw [if_neg Bool.false_ne_true]
      exact (List.perm_append_singleton x _).symm

end ChatShow.Lib.Chains
