import ChatShow.Lib.DoubleList

/-! # `double_list`

`Op.step` is a call of `double_list.h` on the links of the nodes, `Op.seq` is what the call is to do
with the sequence of the nodes. A node that comes in is not in the list before, a node that is named
is in it (`Op.Member`). Then no assertion fails, and after each of any number of calls the links are
those of the sequence of nodes (`double_list_refines`). -/

namespace ChatShow.Antlib.DoubleLists

open ChatShow.Lib.DoubleList

/-- A call, with NULL as `none`. -/
inductive Op (α : Type*)
  | addHead (node : α)
  | addTail (node : α)
  | addBack (prev : Option α) (node : α)
  | addFront (next : Option α) (node : α)
  | remove (node : α)
  | pop
  | push (node : α)

structure State (α : Type*) where
  nodes : Links α := {}
  list : DList α := {}

variable {α : Type*} [DecidableEq α]

/-! ### Calls on links, calls on sequences -/

/-- What is left by a function that returns nothing. -/
def returned (r : Option (Links α × DList α)) : Option (Option α × State α) :=
  r.map fun (n, d) => (none, ⟨n, d⟩)

/-- The node that the call returns, and the links after it. -/
def Op.step (s : State α) : Op α → Option (Option α × State α)
  | .addHead node => returned (Lib.DoubleList.addHead s.nodes s.list node)
  | .addTail node => returned (Lib.DoubleList.addTail s.nodes s.list node)
  | .addBack prev node => returned (Lib.DoubleList.addBack s.nodes s.list prev node)
  | .addFront next node => returned (Lib.DoubleList.addFront s.nodes s.list next node)
  | .remove node => returned (Lib.DoubleList.remove s.nodes s.list node)
  | .pop => (Lib.DoubleList.pop s.nodes s.list).map fun (node, n, d) => (node, ⟨n, d⟩)
  | .push node => returned (Lib.DoubleList.addTail s.nodes s.list node)

/-- The sequence with a node behind `p`. -/
def behind (p node : α) : List α → List α
  | [] => []
  | a :: l => if a = p then a :: node :: l else a :: behind p node l

/-- The sequence with a node in front of `q`. -/
def before (q node : α) : List α → List α
  | [] => []
  | a :: l => if a = q then node :: a :: l else a :: before q node l

/-- The node that is returned, and the sequence after the call. -/
def Op.seq (l : List α) : Op α → Option α × List α
  | .addHead node => (none, node :: l)
  | .addTail node => (none, l ++ [node])
  | .addBack none node => (none, node :: l)
  | .addBack (some p) node => (none, behind p node l)
  | .addFront none node => (none, l ++ [node])
  | .addFront (some q) node => (none, before q node l)
  | .remove node => (none, l.erase node)
  | .pop => (l.head?, l.tail)
  | .push node => (none, l ++ [node])

/-- The call may be made on a list with the nodes `l`. -/
def Op.Member (l : List α) : Op α → Prop
  | .addHead node => node ∉ l
  | .addTail node => node ∉ l
  | .addBack prev node => node ∉ l ∧ ∀ p ∈ prev, p ∈ l
  | .addFront next node => node ∉ l ∧ ∀ q ∈ next, q ∈ l
  | .remove node => node ∈ l
  | .pop => True
  | .push node => node ∉ l

instance (l : List α) : (o : Op α) → Decidable (o.Member l)
  | .addHead _ | .addTail _ | .push _ => inferInstanceAs (Decidable (¬ _))
  | .addBack .. | .addFront .. => inferInstanceAs (Decidable (_ ∧ _))
  | .remove _ => inferInstanceAs (Decidable (_ ∈ l))
  | .pop => .isTrue trivial

/-- All calls may be made, one after the other. -/
def Members (l : List α) : List (Op α) → Prop
  | [] => True
  | o :: ops => o.Member l ∧ Members (o.seq l).2 ops

instance decidableMembers : (l : List α) → (ops : List (Op α)) → Decidable (Members l ops)
  | _, [] => .isTrue trivial
  | l, o :: ops =>
    have := decidableMembers (o.seq l).2 ops
    inferInstanceAs (Decidable (o.Member l ∧ Members (o.seq l).2 ops))

/-- **The calls do with the links what they are to do with the sequence**: each returns the node
that it is to return, and the list has the nodes of the sequence before the calls and after each of
them. -/
def Refines (s : State α) (l : List α) : List (Op α) → Prop
  | [] => IsList s.nodes s.list l
  | o :: ops =>
    IsList s.nodes s.list l ∧
      ∃ s', o.step s = some ((o.seq l).1, s') ∧ Refines s' (o.seq l).2 ops

/-! ### One call -/

variable {s : State α} {l l₁ l₂ : List α} {a p q : α} {r : Option (Links α × DList α)}

theorem behind_append (hp : p ∉ l₁) : behind p a (l₁ ++ p :: l₂) = l₁ ++ p :: a :: l₂ := by
  induction l₁ with
  | nil => exact if_pos rfl
  | cons b l₁ ih =>
    obtain ⟨hb, hl⟩ := not_or.mp (mt List.mem_cons.mpr hp)
    rw [List.cons_append, behind, if_neg (Ne.symm hb), ih hl]
    rfl

theorem before_append (hq : q ∉ l₁) : before q a (l₁ ++ q :: l₂) = l₁ ++ a :: q :: l₂ := by
  induction l₁ with
  | nil => exact if_pos rfl
  | cons b l₁ ih =>
    obtain ⟨hb, hl⟩ := not_or.mp (mt List.mem_cons.mpr hq)
    rw [List.cons_append, before, if_neg (Ne.symm hb), ih hl]
    rfl

omit [DecidableEq α] in
/-- A node of a list is once in it. -/
theorem exists_split (h : l.Nodup) (ha : a ∈ l) : ∃ l₁ l₂, l = l₁ ++ a :: l₂ ∧ a ∉ l₁ := by
  obtain ⟨l₁, l₂, rfl⟩ := List.append_of_mem ha
  refine ⟨l₁, l₂, rfl, fun hmem => ?_⟩
  exact (List.disjoint_of_nodup_append h) hmem List.mem_cons_self

omit [DecidableEq α] in
theorem returned_spec {m : List α} {P : Links α → Prop}
    (h : ∃ n d, r = some (n, d) ∧ IsList n d m ∧ P n) :
    ∃ s', returned r = some (none, s') ∧ IsList s'.nodes s'.list m := by
  obtain ⟨n, d, rfl, hm, -⟩ := h
  exact ⟨⟨n, d⟩, rfl, hm⟩

/-- **A call does with the links what it is to do with the sequence.** -/
theorem step_spec (h : IsList s.nodes s.list l) {o : Op α} (hm : o.Member l) :
    ∃ s', o.step s = some ((o.seq l).1, s') ∧ IsList s'.nodes s'.list (o.seq l).2 := by
  cases o with
  | addHead node => exact returned_spec (h.addHead hm)
  | addTail node => exact returned_spec (h.addTail hm)
  | push node => exact returned_spec (h.addTail hm)
  | addBack prev node =>
    obtain ⟨hnode, hprev⟩ := hm
    cases prev with
    | none => exact returned_spec (h.addHead hnode)
    | some p =>
      obtain ⟨l₁, l₂, rfl, hp⟩ := exists_split h.nodup (hprev p rfl)
      rw [Op.seq, behind_append hp]
      exact returned_spec (h.addBack hnode)
  | addFront next node =>
    obtain ⟨hnode, hnext⟩ := hm
    cases next with
    | none => exact returned_spec (h.addTail hnode)
    | some q =>
      obtain ⟨l₁, l₂, rfl, hq⟩ := exists_split h.nodup (hnext q rfl)
      rw [Op.seq, before_append hq]
      exact returned_spec (h.addFront hnode)
  | remove node =>
    obtain ⟨l₁, l₂, rfl, hnode⟩ := exists_split h.nodup hm
    rw [Op.seq, List.erase_append_right _ hnode, List.erase_cons_head]
    exact returned_spec h.remove
  | pop =>
    unfold Op.step
    cases l with
    | nil =>
      rw [pop_empty h]
      exact ⟨s, rfl, h⟩
    | cons a l =>
      obtain ⟨n, d, hpop, hl, -⟩ := h.pop
      rw [hpop]
      exact ⟨⟨n, d⟩, rfl, hl⟩

/-! ### Any number of calls -/

/-- **The operations refine sequences**, from any list that is well formed. -/
theorem double_list_refines (s : State α) (l : List α) (h : IsList s.nodes s.list l)
    (ops : List (Op α)) (hm : Members l ops) : Refines s l ops := by
  induction ops generalizing s l with
  | nil => exact h
  | cons o ops ih =>
    obtain ⟨s', hs, h'⟩ := step_spec h hm.1
    exact ⟨h, s', hs, ih s' _ h' hm.2⟩

/-- A list that is filled from both ends and in between, and emptied again. -/
theorem double_list_refines_filled : Refines ({} : State ℕ) []
    [.pop, .push 1, .addHead 2, .addBack (some 2) 3, .addFront (some 1) 4, .addBack none 5,
      .remove 1, .pop, .remove 3, .pop, .pop, .addFront none 3] :=
  double_list_refines {} [] (isList_empty {}) _ (by decide)

end ChatShow.Antlib.DoubleLists
