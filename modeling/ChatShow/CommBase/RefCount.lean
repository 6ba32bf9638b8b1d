import ChatShow.CommBase.SmartPtr

/-! # Counts of objects

Between operations the heap is `Good`: the counts are right, and no pointer is left in a deleted object or
to one. While a pointer `x` lets go, all the others are right, and the members of what has been deleted are
still to be destroyed (`Mid`). This goes through unless `x` itself is among them (`letGo_spec`), so that an
assignment goes through just when it is `Safe`. -/

namespace ChatShow.CommBase.RefCount

open ChatShow.CommBase.SmartPtr ChatShow.CommBase.SmartPtr.Heap ChatShow.Lib.Runs

/-! ### Numbers of pointers -/

section

variable {s : Heap} {x p o : ℕ}

theorem number_pos : 0 < s.number o ↔ ∃ p ∈ s.ptrs, s.target p = some o := by
  unfold number
  rw [List.countP_pos_iff]
  simp

theorem number_drop (hx : x ∈ s.ptrs) (o : ℕ) :
    s.number o = (s.drop x).number o + if s.target x = some o then 1 else 0 := by
  unfold number drop
  rw [(List.perm_cons_erase hx).countP_eq, List.countP_cons]
  simp

theorem number_congr {s' : Heap} (hptrs : s'.ptrs = s.ptrs)
    (htarget : ∀ p ∈ s.ptrs, s'.target p = s.target p) (o : ℕ) : s'.number o = s.number o := by
  unfold number
  rw [hptrs]
  refine List.countP_congr fun p hp => ?_
  rw [htarget p hp]

theorem mem_drop (hn : s.ptrs.Nodup) : p ∈ (s.drop x).ptrs ↔ p ≠ x ∧ p ∈ s.ptrs :=
  hn.mem_erase_iff

theorem drop_comm (s : Heap) (x y : ℕ) : (s.drop x).drop y = (s.drop y).drop x := by
  unfold drop
  rw [List.erase_comm]

theorem drop_of_notMem (h : x ∉ s.ptrs) : s.drop x = s := by
  unfold drop
  rw [List.erase_of_not_mem h]

/-- What `release` does to an object that is there. -/
theorem release_of_alive (h : s.Alive o) :
    s.release (some o) =
      if s.count o - 1 ≤ 0 then
        some ({ s with
          count := Function.update s.count o (s.count o - 1), deleted := s.deleted ++ [o] },
          s.members o)
      else some ({ s with count := Function.update s.count o (s.count o - 1) }, []) := by
  unfold Heap.release
  simp only [if_pos h, Function.update_self]
  rfl

theorem release_of_dead (h : ¬ s.Alive o) : s.release (some o) = none := if_neg h

theorem addref_of_alive (h : s.Alive o) :
    s.addref (some o) = some { s with
      count := Function.update s.count o (s.count o + 1), held := Function.update s.held o true } :=
  if_pos h

theorem addref_of_dead (h : ¬ s.Alive o) : s.addref (some o) = none := if_neg h

theorem mem_members : p ∈ s.members o ↔ p ∈ s.ptrs ∧ s.home p = some o := by
  unfold members
  rw [List.mem_filter, decide_eq_true_eq]

end

/-! ### The invariant -/

structure Good (s : Heap) : Prop where
  nodup : s.ptrs.Nodup
  count : ∀ o, s.Alive o → s.count o = s.number o
  target : ∀ p ∈ s.ptrs, ∀ o, s.target p = some o → s.Alive o
  home : ∀ p ∈ s.ptrs, ∀ o, s.home p = some o → s.Alive o
  held : ∀ o, s.Alive o → (s.held o = true ↔ 0 < s.number o)
  made : ∀ o, s.held o = true → o < s.made
  once : s.deleted.Nodup
  deleted : ∀ o ∈ s.deleted, s.held o = true

theorem good_start : Good {} where
  nodup := List.nodup_nil
  count o ho := absurd ho.1 (Nat.not_lt_zero o)
  target _ hp := absurd hp List.not_mem_nil
  home _ hp := absurd hp List.not_mem_nil
  held o ho := absurd ho.1 (Nat.not_lt_zero o)
  made _ ho := absurd ho Bool.false_ne_true
  once := List.nodup_nil
  deleted _ ho := absurd ho List.not_mem_nil

theorem Good.counted {s : Heap} (h : Good s) : Counted s where
  count := h.count
  deleted o := by
    by_cases hdel : o ∈ s.deleted
    · have hnone : s.number o = 0 := by
        by_contra hne
        obtain ⟨p, hp, ht⟩ := number_pos.mp (Nat.pos_of_ne_zero hne)
        exact (h.target p hp o ht).2 hdel
      rw [if_pos ⟨h.deleted o hdel, hnone⟩, List.count_eq_one_of_mem h.once hdel]
    · rw [List.count_eq_zero_of_not_mem hdel, if_neg]
      rintro ⟨hheld, hnone⟩
      have hpos := (h.held o ⟨h.made o hheld, hdel⟩).mp hheld
      omega

/-- What holds while `x` lets go, in a heap that was `b`: the object `e` is still to be released, and
then the pointers `xs` are to be destroyed. -/
structure Mid (b : Heap) (x : ℕ) (e : Option ℕ) (xs : List ℕ) (s : Heap) : Prop where
  target_eq : s.target = b.target
  home_eq : s.home = b.home
  held_eq : s.held = b.held
  made_eq : s.made = b.made
  sub : ∀ p ∈ s.ptrs, p ∈ b.ptrs
  nodup : s.ptrs.Nodup
  owed : ∀ o, e = some o → s.Alive o ∧ ∃ p ∈ b.ptrs, b.target p = some o
  count : ∀ o, s.Alive o → s.count o = (s.drop x).number o + if e = some o then 1 else 0
  target : ∀ p ∈ s.ptrs, p ≠ x → ∀ o, s.target p = some o → s.Alive o
  held : ∀ o, s.Alive o → s.held o = true → e = some o ∨ 0 < (s.drop x).number o
  once : s.deleted.Nodup
  deleted : ∀ o ∈ s.deleted, s.held o = true
  nodup_todo : xs.Nodup
  todo : ∀ p, p ∈ xs ↔ p ∈ s.ptrs ∧ ∃ o, s.home p = some o ∧ o ∈ s.deleted
  dies : ∀ o ∈ s.deleted, o ∈ b.deleted ∨ Dies b x o
  gone : ∀ p ∈ b.ptrs, p ∉ s.ptrs → p = x ∨ Lost b x p

section

variable {b s : Heap} {x q : ℕ} {e : Option ℕ} {xs : List ℕ}

theorem mid_start (hb : Good b) (hx : x ∈ b.ptrs) : Mid b x (b.target x) [] b where
  target_eq := rfl
  home_eq := rfl
  held_eq := rfl
  made_eq := rfl
  sub _ hp := hp
  nodup := hb.nodup
  owed o ho := ⟨hb.target x hx o ho, x, hx, ho⟩
  count o ho := by
    have hc := hb.count o ho
    rw [number_drop hx] at hc
    split_ifs at hc ⊢ <;> omega
  target p hp _ := hb.target p hp
  held o ho hheld := by
    have hpos := (hb.held o ho).mp hheld
    rw [number_drop hx] at hpos
    split_ifs at hpos with h
    · exact Or.inl h
    · exact Or.inr hpos
  once := hb.once
  deleted := hb.deleted
  nodup_todo := List.nodup_nil
  todo p := by
    refine iff_of_false List.not_mem_nil ?_
    rintro ⟨hp, o, ho, hdel⟩
    exact (hb.home p hp o ho).2 hdel
  dies o ho := Or.inl ho
  gone p hp hnot := absurd hp hnot

/-- The pointer that lets go may be gone already. -/
theorem Mid.drop_self (h : Mid b x e [] s) : Mid b x e [] (s.drop x) := by
  have hdrop : (s.drop x).drop x = s.drop x := drop_of_notMem h.nodup.not_mem_erase
  exact
    { target_eq := h.target_eq
      home_eq := h.home_eq
      held_eq := h.held_eq
      made_eq := h.made_eq
      sub := fun p hp => h.sub p (List.mem_of_mem_erase hp)
      nodup := h.nodup.erase x
      owed := h.owed
      count := fun o ho => by rw [hdrop]; exact h.count o ho
      target := fun p hp => h.target p (List.mem_of_mem_erase hp)
      held := fun o ho => by rw [hdrop]; exact h.held o ho
      once := h.once
      deleted := h.deleted
      nodup_todo := h.nodup_todo
      todo := fun p => by
        refine iff_of_false List.not_mem_nil ?_
        rintro ⟨hp, hdead⟩
        exact List.not_mem_nil ((h.todo p).mpr ⟨List.mem_of_mem_erase hp, hdead⟩)
      dies := h.dies
      gone := fun p hp hnot => by
        by_cases hpx : p = x
        · exact Or.inl hpx
        · exact h.gone p hp fun hmem => hnot ((mem_drop h.nodup).mpr ⟨hpx, hmem⟩) }

/-- The next pointer is gone, and its object is to be released. -/
theorem Mid.pop (hb : Good b) (h : Mid b x none (q :: xs) s) (hqx : q ≠ x) :
    Mid b x (s.target q) xs (s.drop q) := by
  obtain ⟨hq, oq, hoq, hdel⟩ := (h.todo q).mp List.mem_cons_self
  obtain ⟨hqxs, hxs⟩ := List.nodup_cons.mp h.nodup_todo
  have hqd : q ∈ (s.drop x).ptrs := (mem_drop h.nodup).mpr ⟨hqx, hq⟩
  have hnum (o : ℕ) : (s.drop x).number o =
      ((s.drop q).drop x).number o + if s.target q = some o then 1 else 0 := by
    rw [drop_comm s q x]
    exact number_drop hqd o
  exact
    { target_eq := h.target_eq
      home_eq := h.home_eq
      held_eq := h.held_eq
      made_eq := h.made_eq
      sub := fun p hp => h.sub p (List.mem_of_mem_erase hp)
      nodup := h.nodup.erase q
      owed := fun o ho => ⟨h.target q hq hqx o ho, q, h.sub q hq, h.target_eq ▸ ho⟩
      count := fun o ho => by
        have hc : s.count o = _ := h.count o ho
        rw [if_neg (by simp), hnum] at hc
        rw [show (s.drop q).count o = s.count o from rfl]
        split_ifs at hc ⊢ <;> omega
      target := fun p hp => h.target p (List.mem_of_mem_erase hp)
      held := fun o ho hheld => by
        have hpos := (h.held o ho hheld).resolve_left (by simp)
        rw [hnum] at hpos
        split_ifs at hpos with ht
        · exact Or.inl ht
        · exact Or.inr hpos
      once := h.once
      deleted := h.deleted
      nodup_todo := hxs
      todo := fun p => by
        have htodo := h.todo p
        rw [List.mem_cons] at htodo
        rw [mem_drop h.nodup, and_assoc]
        constructor
        · intro hp
          exact ⟨fun hpq => hqxs (hpq ▸ hp), htodo.mp (Or.inr hp)⟩
        · rintro ⟨hpq, hp⟩
          exact (htodo.mpr hp).resolve_left hpq
      dies := h.dies
      gone := fun p hp hnot => by
        by_cases hpq : p = q
        · subst hpq
          rw [h.home_eq] at hoq
          exact Or.inr ⟨oq, hoq, (h.dies oq hdel).resolve_left (hb.home p hp oq hoq).2⟩
        · exact h.gone p hp fun hmem => hnot ((mem_drop h.nodup).mpr ⟨hpq, hmem⟩) }

/-- An object that is to be released, and has no other pointer, is one that dies. -/
theorem Mid.dies_owed {o : ℕ} (h : Mid b x (some o) xs s) (hnone : (s.drop x).number o = 0) :
    Dies b x o := by
  have hlost (p : ℕ) (hp : p ∈ b.ptrs) (ht : b.target p = some o) (hpx : p ≠ x) : Lost b x p := by
    refine (h.gone p hp fun hmem => ?_).resolve_left hpx
    have hpos : 0 < (s.drop x).number o :=
      number_pos.mpr ⟨p, (mem_drop h.nodup).mpr ⟨hpx, hmem⟩, by rw [← h.target_eq] at ht; exact ht⟩
    omega
  refine ⟨(h.owed o rfl).2, fun p hp ht hpx => ?_, fun p hp ht hpx o' ho' => ?_⟩
  · obtain ⟨o', ho', -⟩ := hlost p hp ht hpx
    rw [ho']
    exact Option.some_ne_none o'
  · obtain ⟨o'', ho'', hd⟩ := hlost p hp ht hpx
    rw [ho'] at ho''
    cases ho''
    exact hd

/-- The object is released, and it is deleted where it has no other pointer. -/
theorem Mid.release (hb : Good b) (h : Mid b x e xs s) :
    ∃ s' more, s.release e = some (s', more) ∧ Mid b x none (more ++ xs) s' ∧ s'.ptrs = s.ptrs ∧
      (∀ o ∈ s.deleted, o ∈ s'.deleted) ∧ (more ≠ [] → ∃ o, e = some o ∧ o ∈ s'.deleted) := by
  cases e with
  | none => exact ⟨s, [], rfl, h, rfl, fun _ ho => ho, fun hne => absurd rfl hne⟩
  | some o =>
    obtain ⟨halive, p, hp, hptr⟩ := h.owed o rfl
    have hcount := h.count o halive
    rw [if_pos rfl] at hcount
    have hkeep (o' : ℕ) (ho' : s.Alive o') : Function.update s.count o (s.count o - 1) o' =
        (s.drop x).number o' := by
      have hc := h.count o' ho'
      by_cases hoo : o' = o
      · rw [hoo, Function.update_self]
        omega
      · rw [Function.update_of_ne hoo, hc, if_neg (by simpa using Ne.symm hoo), Int.add_zero]
    rw [release_of_alive halive]
    by_cases hzero : (s.drop x).number o = 0
    · rw [if_pos (by omega)]
      refine ⟨_, _, rfl, ?_, rfl, fun _ ho => List.mem_append_left _ ho,
        fun _ => ⟨o, rfl, List.mem_append_right _ (List.mem_singleton_self o)⟩⟩
      have hdead {o' : ℕ} : o' ∈ s.deleted ++ [o] ↔ o' ∈ s.deleted ∨ o' = o := by
        rw [List.mem_append, List.mem_singleton]
      exact
        { target_eq := h.target_eq
          home_eq := h.home_eq
          held_eq := h.held_eq
          made_eq := h.made_eq
          sub := h.sub
          nodup := h.nodup
          owed := fun _ ho => by cases ho
          count := fun o' ho' => by
            rw [if_neg (by simp), Int.add_zero]
            exact hkeep o' ⟨ho'.1, fun hdel => ho'.2 (hdead.mpr (Or.inl hdel))⟩
          target := fun p hp hpx o' ht => by
            have halive' := h.target p hp hpx o' ht
            refine ⟨halive'.1, fun hdel => (hdead.mp hdel).elim halive'.2 fun hoo => ?_⟩
            have hpos := number_pos.mpr ⟨p, (mem_drop h.nodup).mpr ⟨hpx, hp⟩, hoo ▸ ht⟩
            omega
          held := fun o' ho' hheld => by
            have halive' : s.Alive o' := ⟨ho'.1, fun hdel => ho'.2 (hdead.mpr (Or.inl hdel))⟩
            refine (h.held o' halive' hheld).imp_left fun heq => ?_
            cases heq
            exact absurd (hdead.mpr (Or.inr rfl)) ho'.2
          once := by
            refine List.nodup_append.mpr ⟨h.once, List.nodup_singleton o, fun o' ho' _ ho'' heq => ?_⟩
            rw [List.mem_singleton.mp ho''] at heq
            exact halive.2 (heq ▸ ho')
          deleted := fun o' ho' => by
            rcases hdead.mp ho' with hdel | rfl
            · exact h.deleted o' hdel
            · rw [h.held_eq]
              exact (hb.held o' (hb.target p hp o' hptr)).mpr (number_pos.mpr ⟨p, hp, hptr⟩)
          nodup_todo := by
            refine List.nodup_append.mpr ⟨h.nodup.filter _, h.nodup_todo, fun p hp _ hp' heq => ?_⟩
            obtain ⟨-, o', ho', hdel⟩ := (h.todo p).mp (heq ▸ hp')
            rw [(mem_members.mp hp).2] at ho'
            cases ho'
            exact halive.2 hdel
          todo := fun p => by
            rw [List.mem_append, mem_members, h.todo p, ← and_or_left]
            refine and_congr_right fun _ => ?_
            constructor
            · rintro (ho | ⟨o', ho', hdel⟩)
              · exact ⟨o, ho, hdead.mpr (Or.inr rfl)⟩
              · exact ⟨o', ho', hdead.mpr (Or.inl hdel)⟩
            · rintro ⟨o', ho', hdel⟩
              rcases hdead.mp hdel with hdel | rfl
              · exact Or.inr ⟨o', ho', hdel⟩
              · exact Or.inl ho'
          dies := fun o' ho' => by
            rcases hdead.mp ho' with hdel | rfl
            · exact h.dies o' hdel
            · exact Or.inr (h.dies_owed hzero)
          gone := h.gone }
    · rw [if_neg (by omega)]
      refine ⟨_, [], rfl, ?_, rfl, fun _ ho => ho, fun hne => absurd rfl hne⟩
      exact
        { h with
          owed := fun _ ho => by cases ho
          count := fun o' ho' => by
            rw [if_neg (by simp), Int.add_zero]
            exact hkeep o' ho'
          held := fun o' ho' hheld => by
            refine Or.inr ((h.held o' ho' hheld).elim (fun heq => ?_) id)
            cases heq
            exact Nat.pos_of_ne_zero hzero }

/-- **The destructors go through**, unless the pointer that lets go is to be destroyed, too. -/
theorem destroyAll_spec (hb : Good b) {n : ℕ} (h : Mid b x none xs s) (hn : s.ptrs.length ≤ n)
    (hx : xs ≠ [] → ∃ o, s.target x = some o ∧ o ∈ s.deleted) :
    (∃ s', destroyAll n xs s = some s' ∧ Mid b x none [] s' ∧ (x ∈ s'.ptrs ↔ x ∈ s.ptrs)) ∨
      (destroyAll n xs s = none ∧ x ∈ s.ptrs ∧ Lost b x x) := by
  induction n generalizing xs s with
  | zero =>
    cases xs with
    | nil => exact Or.inl ⟨s, rfl, h, Iff.rfl⟩
    | cons q xs =>
      have hq := ((h.todo q).mp List.mem_cons_self).1
      have hpos := List.length_pos_of_mem hq
      omega
  | succ n ih =>
    cases xs with
    | nil => exact Or.inl ⟨s, rfl, h, Iff.rfl⟩
    | cons q xs =>
      obtain ⟨hq, oq, hoq, hdel⟩ := (h.todo q).mp List.mem_cons_self
      obtain ⟨ox, hox, hxdel⟩ := hx (List.cons_ne_nil q xs)
      unfold destroyAll
      by_cases hqx : q = x
      · -- its object is deleted already
        subst hqx
        refine Or.inr ⟨?_, hq, oq, h.home_eq ▸ hoq, ?_⟩
        · have hdead : ¬ (s.drop q).Alive ox := fun ha => ha.2 hxdel
          rw [hox, release_of_dead hdead]
          rfl
        · have hlive := hb.home q (h.sub q hq) oq (h.home_eq ▸ hoq)
          exact (h.dies oq hdel).resolve_left hlive.2
      · obtain ⟨s', more, hrel, hmid, hptrs, hmono, -⟩ := (h.pop hb hqx).release hb
        rw [hrel, Option.bind_some]
        have hlen : s'.ptrs.length ≤ n := by
          rw [hptrs]
          unfold drop
          dsimp only
          rw [List.length_erase_of_mem hq]
          omega
        have hsame : s'.target x = some ox := by
          rw [hmid.target_eq, ← h.target_eq]
          exact hox
        have hkeep : x ∈ s'.ptrs ↔ x ∈ s.ptrs := by
          rw [hptrs, mem_drop h.nodup, and_iff_right (Ne.symm hqx)]
        rcases ih hmid hlen fun _ => ⟨ox, hsame, hmono ox hxdel⟩ with
          ⟨s'', hs'', hmid'', hx''⟩ | ⟨hs'', hx'', hlost⟩
        · exact Or.inl ⟨s'', hs'', hmid'', hx''.trans hkeep⟩
        · exact Or.inr ⟨hs'', hkeep.mp hx'', hlost⟩

/-- What has died has been deleted once all destructors are through. -/
theorem Mid.deleted_of_dies (hb : Good b) (h : Mid b x none [] s) {o : ℕ} (ho : Dies b x o) :
    o ∈ s.deleted := by
  induction ho with
  | @mk o hptr hmember hdies ih =>
    obtain ⟨p, hp, ht⟩ := hptr
    have halive := hb.target p hp o ht
    by_contra hdel
    have hheld : s.held o = true := by
      rw [h.held_eq]
      exact (hb.held o halive).mpr (number_pos.mpr ⟨p, hp, ht⟩)
    have hpos := (h.held o ⟨h.made_eq ▸ halive.1, hdel⟩ hheld).resolve_left (by simp)
    obtain ⟨q, hq, hqt⟩ := number_pos.mp hpos
    obtain ⟨hqx, hqs⟩ := (mem_drop h.nodup).mp hq
    have hqb := h.sub q hqs
    have hqo : b.target q = some o := by rw [← h.target_eq]; exact hqt
    obtain ⟨o', ho'⟩ := Option.ne_none_iff_exists'.mp (hmember q hqb hqo hqx)
    exact List.not_mem_nil ((h.todo q).mpr ⟨hqs, o', h.home_eq ▸ ho', ih q hqb hqo hqx o' ho'⟩)

/-- The pointers that are left are not lost. -/
theorem Mid.not_lost (hb : Good b) (h : Mid b x none [] s) {p : ℕ} (hp : p ∈ s.ptrs) :
    ¬ Lost b x p := by
  rintro ⟨o, ho, hdies⟩
  exact List.not_mem_nil ((h.todo p).mpr ⟨hp, o, h.home_eq ▸ ho, h.deleted_of_dies hb hdies⟩)

/-- What dies begins with the object of `x`, which has no other pointer. -/
theorem dies_root {o : ℕ} (h : Dies b x o) :
    ∃ o', b.target x = some o' ∧ ∀ p ∈ b.ptrs, b.target p = some o' → p = x := by
  induction h with
  | @mk o hptr hmember _ ih =>
    by_cases hother : ∃ p ∈ b.ptrs, b.target p = some o ∧ p ≠ x
    · obtain ⟨p, hp, ht, hpx⟩ := hother
      obtain ⟨o', ho'⟩ := Option.ne_none_iff_exists'.mp (hmember p hp ht hpx)
      exact ih p hp ht hpx o' ho'
    · have hself (p : ℕ) (hp : p ∈ b.ptrs) (ht : b.target p = some o) : p = x :=
        not_not.mp fun hpx => hother ⟨p, hp, ht, hpx⟩
      obtain ⟨p, hp, ht⟩ := hptr
      exact ⟨o, hself p hp ht ▸ ht, hself⟩

/-- **A pointer lets go**, unless it is lost itself. -/
theorem letGo_spec (hb : Good b) (h : Mid b x (b.target x) [] s) :
    (∃ s', s.letGo (b.target x) = some s' ∧ Mid b x none [] s' ∧ (x ∈ s'.ptrs ↔ x ∈ s.ptrs)) ∨
      (s.letGo (b.target x) = none ∧ x ∈ s.ptrs ∧ Lost b x x) := by
  obtain ⟨s₁, more, hrel, hmid, hptrs, -, hmore⟩ := h.release hb
  rw [List.append_nil] at hmid
  unfold letGo
  rw [hrel, Option.bind_some, ← hptrs]
  refine destroyAll_spec hb hmid (Nat.le_refl _) fun hne => ?_
  obtain ⟨o, ho, hdel⟩ := hmore hne
  exact ⟨o, by rw [hmid.target_eq]; exact ho, hdel⟩

end

/-! ### The operations -/

section

variable {s s' : Heap} {x y : ℕ} {home p : Option ℕ}

theorem good_newObject (h : Good s) : Good s.newObject := by
  have halive {o : ℕ} : s.newObject.Alive o ↔ o ∉ s.deleted ∧ (o < s.made ∨ o = s.made) := by
    unfold Alive newObject
    dsimp only
    rw [and_comm, Nat.lt_succ_iff_lt_or_eq]
  have hnew : s.number s.made = 0 := by
    by_contra hne
    obtain ⟨p, hp, ht⟩ := number_pos.mp (Nat.pos_of_ne_zero hne)
    exact absurd (h.target p hp _ ht).1 (Nat.lt_irrefl _)
  have hold {o : ℕ} (ho : s.Alive o) : s.newObject.Alive o := halive.mpr ⟨ho.2, Or.inl ho.1⟩
  constructor
  case nodup => exact h.nodup
  case count =>
    intro o ho
    change Function.update s.count s.made 0 o = s.number o
    obtain ⟨hdel, hlt | rfl⟩ := halive.mp ho
    · rw [Function.update_of_ne (Nat.ne_of_lt hlt)]
      exact h.count o ⟨hlt, hdel⟩
    · rw [Function.update_self, hnew]
      rfl
  case target => exact fun p hp o ho => hold (h.target p hp o ho)
  case home => exact fun p hp o ho => hold (h.home p hp o ho)
  case held =>
    intro o ho
    change s.held o = true ↔ 0 < s.number o
    obtain ⟨hdel, hlt | rfl⟩ := halive.mp ho
    · exact h.held o ⟨hlt, hdel⟩
    · rw [hnew]
      exact iff_of_false (fun hh => Nat.lt_irrefl _ (h.made _ hh)) (Nat.lt_irrefl 0)
  case made => exact fun o ho => Nat.lt_succ_of_lt (h.made o ho)
  case once => exact h.once
  case deleted => exact h.deleted

/-- All is right but for what `x` points to. -/
structure AllBut (x : ℕ) (s : Heap) : Prop where
  nodup : s.ptrs.Nodup
  count : ∀ o, s.Alive o → s.count o = (s.drop x).number o
  target : ∀ p ∈ s.ptrs, p ≠ x → ∀ o, s.target p = some o → s.Alive o
  home : ∀ p ∈ s.ptrs, ∀ o, s.home p = some o → s.Alive o
  held : ∀ o, s.Alive o → (s.held o = true ↔ 0 < (s.drop x).number o)
  made : ∀ o, s.held o = true → o < s.made
  once : s.deleted.Nodup
  deleted : ∀ o ∈ s.deleted, s.held o = true

theorem AllBut.good (h : AllBut x s) (hx : x ∉ s.ptrs) : Good s where
  nodup := h.nodup
  count o ho := by
    rw [h.count o ho, drop_of_notMem hx]
  target p hp := h.target p hp fun hpx => hx (hpx ▸ hp)
  home := h.home
  held o ho := by
    rw [h.held o ho, drop_of_notMem hx]
  made := h.made
  once := h.once
  deleted := h.deleted

theorem Mid.allBut {b : Heap} (hb : Good b) (h : Mid b x none [] s) : AllBut x s where
  nodup := h.nodup
  count o ho := by
    rw [h.count o ho, if_neg (by simp), Int.add_zero]
  target := h.target
  home p hp o ho := by
    refine ⟨?_, fun hdel => List.not_mem_nil ((h.todo p).mpr ⟨hp, o, ho, hdel⟩)⟩
    rw [h.made_eq]
    exact (hb.home p (h.sub p hp) o (h.home_eq ▸ ho)).1
  held o ho := by
    refine ⟨fun hheld => (h.held o ho hheld).resolve_left (by simp), fun hpos => ?_⟩
    obtain ⟨p, hp, ht⟩ := number_pos.mp hpos
    have hpb := h.sub p (List.mem_of_mem_erase hp)
    have htb : b.target p = some o := by rw [← h.target_eq]; exact ht
    rw [h.held_eq]
    exact (hb.held o (hb.target p hpb o htb)).mpr (number_pos.mpr ⟨p, hpb, htb⟩)
  made o ho := by
    rw [h.made_eq]
    exact hb.made o (h.held_eq ▸ ho)
  once := h.once
  deleted := h.deleted

theorem Good.place (h : Good s) (hx : x ∉ s.ptrs) (hhome : ∀ o ∈ home, s.Alive o) :
    AllBut x (s.place x home p) := by
  have hne {q : ℕ} (hq : q ∈ s.ptrs) : q ≠ x := fun hqx => hx (hqx ▸ hq)
  have htarget {q : ℕ} (hq : q ≠ x) : (s.place x home p).target q = s.target q :=
    Function.update_of_ne hq _ _
  have hptrs : ((s.place x home p).drop x).ptrs = s.ptrs := List.erase_cons_head ..
  have hnum (o : ℕ) : ((s.place x home p).drop x).number o = s.number o :=
    number_congr hptrs (fun q hq => htarget (hne hq)) o
  constructor
  case nodup => exact List.nodup_cons.mpr ⟨hx, h.nodup⟩
  case count =>
    intro o ho
    rw [hnum]
    exact h.count o ho
  case target =>
    intro q hq hqx o ho
    rw [htarget hqx] at ho
    exact h.target q ((List.mem_cons.mp hq).resolve_left hqx) o ho
  case home =>
    intro q hq o ho
    by_cases hqx : q = x
    · subst hqx
      have hself : (s.place q home p).home q = home := Function.update_self ..
      rw [hself] at ho
      exact hhome o ho
    · have hkeep : (s.place x home p).home q = s.home q := Function.update_of_ne hqx _ _
      rw [hkeep] at ho
      exact h.home q ((List.mem_cons.mp hq).resolve_left hqx) o ho
  case held =>
    intro o ho
    rw [hnum]
    exact h.held o ho
  case made => exact h.made
  case once => exact h.once
  case deleted => exact h.deleted

theorem AllBut.point (h : AllBut x s) (t : Option ℕ) : AllBut x (s.point x t) := by
  have htarget {q : ℕ} (hq : q ≠ x) : (s.point x t).target q = s.target q :=
    Function.update_of_ne hq _ _
  have hptrs : ((s.point x t).drop x).ptrs = (s.drop x).ptrs := rfl
  have hnum (o : ℕ) : ((s.point x t).drop x).number o = (s.drop x).number o :=
    number_congr hptrs (fun q hq => htarget ((mem_drop h.nodup).mp hq).1) o
  exact
    { h with
      count := fun o ho => by
        rw [hnum]
        exact h.count o ho
      target := fun q hq hqx o ho => h.target q hq hqx o ((htarget hqx).symm.trans ho)
      held := fun o ho => by
        rw [hnum]
        exact h.held o ho }

/-- `x` is counted, and all is right. -/
theorem AllBut.addref (h : AllBut x s) (hx : x ∈ s.ptrs) (ht : ∀ o, s.target x = some o → s.Alive o) :
    ∃ s', s.addref (s.target x) = some s' ∧ Good s' ∧ s'.ptrs = s.ptrs ∧ s'.target = s.target ∧
      s'.home = s.home := by
  have htarget (p : ℕ) (hp : p ∈ s.ptrs) (o : ℕ) (ho : s.target p = some o) : s.Alive o := by
    by_cases hpx : p = x
    · exact ht o (hpx ▸ ho)
    · exact h.target p hp hpx o ho
  cases hto : s.target x with
  | none =>
    refine ⟨s, rfl, ?_, rfl, rfl, rfl⟩
    have hnum (o : ℕ) : s.number o = (s.drop x).number o := by
      rw [number_drop hx, hto, if_neg (by simp), Nat.add_zero]
    exact
      { h with
        target := htarget
        count := fun o ho => by rw [hnum]; exact h.count o ho
        held := fun o ho => by rw [hnum]; exact h.held o ho }
  | some o =>
    have halive := ht o hto
    have hnum (o' : ℕ) : s.number o' = (s.drop x).number o' + if o' = o then 1 else 0 := by
      rw [number_drop hx, hto]
      simp only [Option.some.injEq, eq_comm]
    refine ⟨_, addref_of_alive halive, ?_, rfl, rfl, rfl⟩
    constructor
    case nodup => exact h.nodup
    case count =>
      intro o' ho'
      change Function.update s.count o (s.count o + 1) o' = s.number o'
      have hc := h.count o' ho'
      rw [hnum]
      by_cases hoo : o' = o
      · rw [if_pos hoo, hoo, Function.update_self, ← hoo, hc]
        rfl
      · rw [if_neg hoo, Function.update_of_ne hoo, hc]
        rfl
    case target => exact htarget
    case home => exact h.home
    case held =>
      intro o' ho'
      change Function.update s.held o true o' = true ↔ 0 < s.number o'
      rw [hnum]
      by_cases hoo : o' = o
      · rw [hoo, Function.update_self, if_pos rfl]
        exact iff_of_true rfl (Nat.succ_pos _)
      · rw [if_neg hoo, Function.update_of_ne hoo]
        exact h.held o' ho'
    case made =>
      intro o' ho'
      change Function.update s.held o true o' = true at ho'
      by_cases hoo : o' = o
      · exact hoo ▸ halive.1
      · rw [Function.update_of_ne hoo] at ho'
        exact h.made o' ho'
    case once => exact h.once
    case deleted =>
      intro o' ho'
      change Function.update s.held o true o' = true
      by_cases hoo : o' = o
      · rw [hoo, Function.update_self]
      · rw [Function.update_of_ne hoo]
        exact h.deleted o' ho'

theorem good_construct (h : Good s) (hx : x ∉ s.ptrs) (hhome : ∀ o ∈ home, s.Alive o)
    (hp : ∀ o ∈ p, s.Alive o) :
    ∃ s', s.construct x home p = some s' ∧ Good s' ∧ s'.ptrs = x :: s.ptrs ∧
      s'.target = (s.place x home p).target ∧ s'.home = (s.place x home p).home := by
  have hself : (s.place x home p).target x = p := Function.update_self ..
  obtain ⟨s', hs', hgood, hptrs, htarget, hhome'⟩ :=
    (h.place hx hhome (p := p)).addref List.mem_cons_self fun o ho => hp o (hself.symm.trans ho)
  rw [hself] at hs'
  exact ⟨s', hs', hgood, hptrs, htarget, hhome'⟩

theorem good_destroy (h : Good s) (hx : x ∈ s.ptrs) : ∃ s', s.destroy x = some s' ∧ Good s' := by
  have hgone : x ∉ (s.drop x).ptrs := h.nodup.not_mem_erase
  rcases letGo_spec h (mid_start h hx).drop_self with ⟨s', hs', hmid, hiff⟩ | ⟨-, hmem, -⟩
  · exact ⟨s', hs', (hmid.allBut h).good fun hmem => hgone (hiff.mp hmem)⟩
  · exact absurd hmem hgone

/-- Where an object is kept while its pointer lets go. -/
theorem alive_iff (h : Good s) (hx : x ∈ s.ptrs) (hmid : Mid s x none [] s') {o : ℕ}
    (ho : s.target x = some o) :
    s'.Alive o ↔ ∃ p ∈ s.ptrs, p ≠ x ∧ s.target p = some o := by
  have halive := h.target x hx o ho
  constructor
  · intro halive'
    have hheld : s'.held o = true := by
      rw [hmid.held_eq]
      exact (h.held o halive).mpr (number_pos.mpr ⟨x, hx, ho⟩)
    obtain ⟨p, hp, ht⟩ := number_pos.mp ((hmid.held o halive' hheld).resolve_left (by simp))
    obtain ⟨hpx, hp⟩ := (mem_drop hmid.nodup).mp hp
    exact ⟨p, hmid.sub p hp, hpx, by rw [← hmid.target_eq]; exact ht⟩
  · rintro ⟨p, hp, hpx, ht⟩
    refine ⟨hmid.made_eq ▸ halive.1, fun hdel => hpx ?_⟩
    obtain ⟨o', ho', hself⟩ := dies_root ((hmid.dies o hdel).resolve_left halive.2)
    rw [ho] at ho'
    cases ho'
    exact hself p hp ht

/-- **An assignment goes through** just when neither pointer is lost by it, and it is not from itself as
the only pointer to its object. -/
theorem assign_spec (h : Good s) (hx : x ∈ s.ptrs) (hy : y ∈ s.ptrs) :
    (∃ s', s.assign x y = some s' ∧ Good s' ∧ y ∈ s'.ptrs ∧ Safe s (.assign x y)) ∨
      (s.assign x y = none ∧ ¬ Safe s (.assign x y)) := by
  unfold assign
  rcases letGo_spec h (mid_start h hx) with ⟨s₁, hs₁, hmid, hiff⟩ | ⟨hs₁, -, hlost⟩
  · rw [hs₁, Option.bind_some]
    have hx₁ := hiff.mpr hx
    by_cases hy₁ : y ∈ s₁.ptrs
    · rw [if_pos ⟨hx₁, hy₁⟩]
      have hself : (s₁.point x (s₁.target y)).target x = s₁.target y := Function.update_self ..
      have hgo (halive : ∀ o, s₁.target y = some o → s₁.Alive o) :
          ∃ s', (s₁.point x (s₁.target y)).addref (s₁.target y) = some s' ∧ Good s' ∧ y ∈ s'.ptrs := by
        obtain ⟨s', hs', hgood, hptrs, -⟩ := ((hmid.allBut h).point (s₁.target y)).addref hx₁
          fun o ho => halive o (hself.symm.trans ho)
        rw [hself] at hs'
        exact ⟨s', hs', hgood, hptrs ▸ hy₁⟩
      have hsafe := And.intro (hmid.not_lost h hx₁) (hmid.not_lost h hy₁)
      by_cases hxy : x = y
      · subst hxy
        cases hto : s₁.target x with
        | none =>
          rw [hto] at hgo
          obtain ⟨s', hs', hgood, hmem⟩ := hgo fun o ho => by cases ho
          refine Or.inl ⟨s', hs', hgood, hmem, hsafe.1, hsafe.2, fun _ o ho => ?_⟩
          rw [← hmid.target_eq, hto] at ho
          cases ho
        | some o =>
          have ho : s.target x = some o := by rw [← hmid.target_eq, hto]
          have halive := alive_iff h hx hmid ho
          by_cases hother : ∃ p ∈ s.ptrs, p ≠ x ∧ s.target p = some o
          · rw [hto] at hgo
            obtain ⟨s', hs', hgood, hmem⟩ := hgo fun o' ho' => by
              cases ho'
              exact halive.mpr hother
            refine Or.inl ⟨s', hs', hgood, hmem, hsafe.1, hsafe.2, fun _ o' ho' => ?_⟩
            rw [ho] at ho'
            cases ho'
            exact hother
          · have hdead : ¬ (s₁.point x (some o)).Alive o := fun ha => hother (halive.mp ha)
            exact Or.inr ⟨addref_of_dead hdead, fun hs => hother (hs.2.2 rfl o ho)⟩
      · obtain ⟨s', hs', hgood, hmem⟩ := hgo ((hmid.allBut h).target y hy₁ (Ne.symm hxy))
        exact Or.inl ⟨s', hs', hgood, hmem, hsafe.1, hsafe.2, fun heq => absurd heq hxy⟩
    · rw [if_neg fun hboth => hy₁ hboth.2]
      refine Or.inr ⟨rfl, fun hsafe => hsafe.2.1 ((hmid.gone y hy hy₁).resolve_left fun hyx => ?_)⟩
      exact hy₁ (hyx ▸ hx₁)
  · rw [hs₁]
    exact Or.inr ⟨rfl, fun hsafe => hsafe.1 hlost⟩

theorem Lost.congr {x p : ℕ} (hptrs : s'.ptrs = s.ptrs) (htarget : s'.target = s.target)
    (hhome : s'.home = s.home) (h : Lost s x p) : Lost s' x p := by
  obtain ⟨o, ho, hdies⟩ := h
  refine ⟨o, hhome ▸ ho, ?_⟩
  clear ho
  induction hdies with
  | mk hptr hmember _ ih =>
    rw [← hptrs, ← htarget] at hptr hmember ih
    rw [← hhome] at hmember ih
    exact ⟨hptr, hmember, ih⟩

/-- The assignment of a raw pointer goes through just when its target is not lost by it. -/
theorem assignRaw_spec {temp : ℕ} (h : Good s) (htemp : temp ∉ s.ptrs) (hx : x ∈ s.ptrs)
    (hp : ∀ o ∈ p, s.Alive o) :
    (∃ s', s.assignRaw temp x p = some s' ∧ Good s' ∧ Safe s (.assignRaw temp x p)) ∨
      (s.assignRaw temp x p = none ∧ ¬ Safe s (.assignRaw temp x p)) := by
  obtain ⟨s₁, hs₁, hgood, hptrs, htarget, hhome⟩ :=
    good_construct h htemp (fun o (ho : o ∈ none) => by cases ho) hp
  have hxt : x ≠ temp := fun heq => htemp (heq ▸ hx)
  have hsafe : Safe s₁ (.assign x temp) ↔ Safe s (.assignRaw temp x p) := by
    have hlost : Lost s₁ x x ↔ Lost (s.place temp none p) x x :=
      ⟨Lost.congr hptrs.symm htarget.symm hhome.symm, Lost.congr hptrs htarget hhome⟩
    have htempLost : ¬ Lost s₁ x temp := by
      rintro ⟨o, ho, -⟩
      have hself : (s.place temp none p).home temp = none := Function.update_self ..
      rw [hhome, hself] at ho
      cases ho
    exact ⟨fun hs hl => hs.1 (hlost.mpr hl),
      fun hs => ⟨fun hl => hs (hlost.mp hl), htempLost, fun heq => absurd heq hxt⟩⟩
  unfold assignRaw
  rw [hs₁, Option.bind_some, ← hsafe]
  rcases assign_spec hgood (hptrs ▸ List.mem_cons_of_mem temp hx)
    (hptrs ▸ List.mem_cons_self) with ⟨s₂, hs₂, hgood₂, hmem, hs⟩ | ⟨hs₂, hs⟩
  · rw [hs₂, Option.bind_some]
    obtain ⟨s₃, hs₃, hgood₃⟩ := good_destroy hgood₂ hmem
    exact Or.inl ⟨s₃, hs₃, hgood₃, hs⟩
  · rw [hs₂]
    exact Or.inr ⟨rfl, hs⟩

/-- A step goes through just when it is safe, and leaves all right. -/
theorem step_spec (h : Good s) {a : Op} (ha : Valid s a) :
    (∃ s', s.step a = some s' ∧ Good s' ∧ Safe s a) ∨ (s.step a = none ∧ ¬ Safe s a) := by
  cases a with
  | newObject => exact Or.inl ⟨_, rfl, good_newObject h, trivial⟩
  | construct x home p =>
    obtain ⟨s', hs', hgood, -⟩ := good_construct h ha.1 ha.2.1 ha.2.2
    exact Or.inl ⟨s', hs', hgood, trivial⟩
  | copy x home y =>
    obtain ⟨s', hs', hgood, -⟩ := good_construct h ha.1 ha.2.1 fun o ho => h.target y ha.2.2 o ho
    exact Or.inl ⟨s', hs', hgood, trivial⟩
  | assign x y =>
    rcases assign_spec h ha.1 ha.2 with ⟨s', hs', hgood, -, hsafe⟩ | hnone
    · exact Or.inl ⟨s', hs', hgood, hsafe⟩
    · exact Or.inr hnone
  | assignRaw temp x p => exact assignRaw_spec h ha.1 ha.2.1 ha.2.2
  | destroy x =>
    obtain ⟨s', hs', hgood⟩ := good_destroy h ha
    exact Or.inl ⟨s', hs', hgood, trivial⟩

end

/-! ### Runs -/

/-- A run uses nothing that is gone, and counts rightly in all its states. -/
def Right (s : Heap) (l : List Op) : Prop :=
  (∃ s', run Heap.step s l = some s') ∧
    ∀ l' s', l' <+: l → run Heap.step s l' = some s' → Counted s'

theorem run_spec {s : Heap} (h : Good s) {l : List Op} (hl : Along Heap.step Valid s l) :
    (∀ s', run Heap.step s l = some s' → Good s') ∧
      ((∃ s', run Heap.step s l = some s') ↔ Along Heap.step Safe s l) := by
  induction l generalizing s with
  | nil => exact ⟨fun s' hs' => by cases hs'; exact h, iff_of_true ⟨s, rfl⟩ trivial⟩
  | cons a l ih =>
    rcases step_spec h hl.1 with ⟨s₁, hs₁, hgood, hsafe⟩ | ⟨hs₁, hsafe⟩
    · obtain ⟨hrun, hiff⟩ := ih hgood (hl.2 s₁ hs₁)
      rw [run_cons, hs₁, Option.bind_some, along_cons_some hs₁, and_iff_right hsafe]
      exact ⟨hrun, hiff⟩
    · rw [run_cons, hs₁, Option.bind_none, along_cons_none hs₁]
      exact ⟨fun s' hs' => (by cases hs'), iff_of_false (fun ⟨s', hs'⟩ => by cases hs') hsafe⟩

/-- **The counts are right along a run** just when all its assignments are safe. -/
theorem right_iff {l : List Op} (hl : Along Heap.step Valid {} l) :
    Right {} l ↔ Along Heap.step Safe {} l := by
  refine ⟨fun h => (run_spec good_start hl).2.mp h.1, fun h => ⟨(run_spec good_start hl).2.mpr h, ?_⟩⟩
  rintro l' s' ⟨l'', rfl⟩ hs'
  exact ((run_spec good_start (along_append hl).1).1 s' hs').counted

/-! ### Aliases -/

/-- A pointer and its copy, where the object is given to the copy again and then to itself. -/
def aliases : List Op :=
  [.newObject, .construct 0 none (some 0), .copy 1 none 0, .assign 1 0, .assign 1 1,
    .assignRaw 2 0 (some 0), .destroy 0, .destroy 1]

theorem right_iff_aliases : Right {} aliases ↔ Along Heap.step Safe {} aliases :=
  right_iff (l := aliases) (by decide +kernel)

/-- The only pointer to an object is assigned to itself: the object is deleted, and then used. -/
theorem self_assigned :
    Along Heap.step Valid {} [.newObject, .construct 0 none (some 0), .assign 0 0] ∧
    ∃ s s', run Heap.step {} [.newObject, .construct 0 none (some 0)] = some s ∧ s.number 0 = 1 ∧
      s.letGo (s.target 0) = some s' ∧ s'.deleted = [0] ∧ s'.ptrs = [0] ∧ s'.target 0 = some 0 ∧
      s.step (.assign 0 0) = none ∧
      ¬ Right {} [.newObject, .construct 0 none (some 0), .assign 0 0] := by
  refine ⟨by decide +kernel, _, _, rfl, by decide +kernel, rfl, by decide +kernel, by decide +kernel,
    by decide +kernel, rfl, ?_⟩
  rintro ⟨⟨s', hs'⟩, -⟩
  cases hs'

end ChatShow.CommBase.RefCount
