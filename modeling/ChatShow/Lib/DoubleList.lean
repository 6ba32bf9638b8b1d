import Mathlib.Data.List.Nodup
import Mathlib.Logic.Function.Basic
import Mathlib.Tactic.Common

/-! # Lists that are linked both ways

The nodes are linked by the maps `next` and `prev`, which several lists share; a list has its head
and its tail. `IsList` says which nodes a list has. The operations give `none` where an assertion on
the links fails or a link is followed that is not there: neither is so for a node that is not in the
list and comes into it (`IsList.addHead`, `IsList.addTail`, `IsList.addBack`, `IsList.addFront`), or
is in it and is taken out (`IsList.remove`), and they leave the other nodes as they are (`Apart`). -/

namespace ChatShow.Lib.DoubleList

structure Links (α : Type*) where
  next : α → Option α := fun _ => none
  prev : α → Option α := fun _ => none

structure DList (α : Type*) where
  head : Option α := none
  tail : Option α := none
deriving DecidableEq

section

variable {α : Type*} [DecidableEq α]

def Links.setNext (n : Links α) (a : α) (b : Option α) : Links α :=
  { n with next := Function.update n.next a b }

def Links.setPrev (n : Links α) (a : α) (b : Option α) : Links α :=
  { n with prev := Function.update n.prev a b }

/-- A node is put behind the tail. -/
def addTail (n : Links α) (d : DList α) (a : α) : Option (Links α × DList α) :=
  let n := (n.setNext a none).setPrev a d.tail
  match d.tail with
  | some t => some (n.setNext t (some a), { d with tail := some a })
  | none => if d.head = none then some (n, { head := some a, tail := some a }) else none

/-- A node is put in front of the head. -/
def addHead (n : Links α) (d : DList α) (a : α) : Option (Links α × DList α) :=
  let n := (n.setPrev a none).setNext a d.head
  match d.head with
  | some h => some (n.setPrev h (some a), { d with head := some a })
  | none => if d.tail = none then some (n, { head := some a, tail := some a }) else none

/-- A node is put behind another one, or in front of all. -/
def addBack (n : Links α) (d : DList α) (prev : Option α) (a : α) : Option (Links α × DList α) :=
  match prev with
  | none => addHead n d a
  | some p =>
    if d.tail = some p then addTail n d a
    else
      let n := n.setPrev a (some p)
      let n := n.setNext a (n.next p)
      (n.next p).map fun b => ((n.setPrev b (some a)).setNext p (some a), d)

/-- A node is put in front of another one, or behind all. -/
def addFront (n : Links α) (d : DList α) (next : Option α) (a : α) : Option (Links α × DList α) :=
  match next with
  | none => addTail n d a
  | some q =>
    if d.head = some q then addHead n d a
    else
      let n := n.setNext a (some q)
      let n := n.setPrev a (n.prev q)
      (n.prev q).map fun b => ((n.setNext b (some a)).setPrev q (some a), d)

/-- What comes behind a node gets what comes before it. -/
def unlinkNext (n : Links α) (d : DList α) (a : α) : Option (Links α × DList α) :=
  match n.next a with
  | some b => if n.prev b = some a then some (n.setPrev b (n.prev a), d) else none
  | none => if d.tail = some a then some (n, { d with tail := n.prev a }) else none

/-- What comes before a node gets what comes behind it. -/
def unlinkPrev (n : Links α) (d : DList α) (a : α) : Option (Links α × DList α) :=
  match n.prev a with
  | some b => if n.next b = some a then some (n.setNext b (n.next a), d) else none
  | none => if d.head = some a then some (n, { d with head := n.next a }) else none

/-- A node is taken out. -/
def remove (n : Links α) (d : DList α) (a : α) : Option (Links α × DList α) :=
  (unlinkNext n d a).bind fun (n, d) => unlinkPrev n d a

/-- The head is taken out, if there is one. -/
def pop (n : Links α) (d : DList α) : Option (Option α × Links α × DList α) :=
  match d.head with
  | some a => (remove n d a).map fun (n, d) => (some a, n, d)
  | none => some (none, n, d)

/-! ### The nodes of a list -/

/-- A list has the nodes `l`. -/
structure IsList (n : Links α) (d : DList α) (l : List α) : Prop where
  nodup : l.Nodup
  head : d.head = l.head?
  tail : d.tail = l.getLast?
  links : ∀ l₁ a l₂, l = l₁ ++ a :: l₂ → n.prev a = l₁.getLast? ∧ n.next a = l₂.head?

/-- The links of the other nodes are as they were. -/
def Apart (l : List α) (n n' : Links α) : Prop :=
  ∀ a ∉ l, n'.next a = n.next a ∧ n'.prev a = n.prev a

variable {n n' : Links α} {d d' : DList α} {l l₁ l₂ : List α} {a b p q : α}

omit [DecidableEq α] in
theorem isList_empty (n : Links α) : IsList n {} [] where
  nodup := List.nodup_nil
  head := rfl
  tail := rfl
  links l₁ a l₂ h := by simp at h

omit [DecidableEq α] in
/-- A list that shares no node is left. -/
theorem IsList.apart {l' : List α} (h : IsList n d l) (hn : Apart l' n n') (hl : ∀ a ∈ l, a ∉ l') :
    IsList n' d l where
  nodup := h.nodup
  head := h.head
  tail := h.tail
  links l₁ a l₂ heq := by
    obtain ⟨hnext, hprev⟩ := hn a (hl a (by rw [heq]; simp))
    rw [hnext, hprev]
    exact h.links l₁ a l₂ heq

/-! ### Nodes that come into a list -/

/-- The links where the nodes around `a` have been linked with it. -/
theorem links_inserted (h : IsList n d (l₁ ++ l₂)) (ha : a ∉ l₁ ++ l₂)
    (hprev : ∀ b, n'.prev b =
      if b = a then l₁.getLast? else if l₂.head? = some b then some a else n.prev b)
    (hnext : ∀ b, n'.next b =
      if b = a then l₂.head? else if l₁.getLast? = some b then some a else n.next b)
    {m₁ m₂ : List α} (heq : l₁ ++ a :: l₂ = m₁ ++ b :: m₂) :
    n'.prev b = m₁.getLast? ∧ n'.next b = m₂.head? := by
  have hnodup := h.nodup
  rw [hprev, hnext]
  rcases List.append_eq_append_iff.mp heq with ⟨e, hm₁, hl₂⟩ | ⟨e, hl₁, he⟩
  · cases e with
    | nil =>
      obtain ⟨rfl, rfl⟩ := List.cons_eq_cons.mp hl₂
      rw [if_pos rfl, if_pos rfl, hm₁, List.append_nil]
      exact ⟨rfl, rfl⟩
    | cons c e =>
      -- `b` comes behind `a`
      rw [List.cons_append] at hl₂
      obtain ⟨rfl, rfl⟩ := List.cons_eq_cons.mp hl₂
      subst hm₁
      have hne : b ≠ a := fun hb => ha (by simp [hb])
      obtain ⟨hp, hn⟩ := h.links (l₁ ++ e) b m₂ (by simp)
      simp only [List.nodup_append, List.nodup_cons, List.mem_append, List.mem_cons] at hnodup
      rw [if_neg hne, if_neg hne,
        if_neg fun hh => hnodup.2.2 b (List.mem_of_getLast? hh) b (by simp) rfl]
      refine ⟨?_, hn⟩
      cases e with
      | nil => exact (if_pos rfl).trans (List.getLast?_concat ..).symm
      | cons x e =>
        rw [if_neg, hp]
        · simp [List.getLast?_append]
        · intro hh
          cases hh
          exact hnodup.2.1.2.2 b (by simp) b (by simp) rfl
  · cases e with
    | nil =>
      obtain ⟨rfl, rfl⟩ := List.cons_eq_cons.mp he
      rw [if_pos rfl, if_pos rfl, hl₁, List.append_nil]
      exact ⟨rfl, rfl⟩
    | cons c e =>
      -- `b` comes before `a`
      obtain ⟨rfl, rfl⟩ := List.cons_eq_cons.mp he
      subst hl₁
      have hne : b ≠ a := fun hb => ha (by simp [hb])
      obtain ⟨hp, hn⟩ := h.links m₁ b (e ++ l₂) (by simp)
      simp only [List.nodup_append, List.nodup_cons, List.mem_append, List.mem_cons] at hnodup
      rw [if_neg hne, if_neg hne,
        if_neg fun hh => hnodup.2.2 b (by simp) b (List.mem_of_head? hh) rfl]
      refine ⟨hp, ?_⟩
      obtain rfl | ⟨e, y, rfl⟩ := e.eq_nil_or_concat'
      · rw [if_pos (List.getLast?_concat ..)]
        rfl
      · rw [if_neg, hn]
        · cases e <;> rfl
        · rw [← List.cons_append, ← List.append_assoc, List.getLast?_concat]
          intro hh
          cases hh
          exact hnodup.1.2.1.1 (by simp)

/-- **A node is linked in between the others.** -/
theorem IsList.insert (h : IsList n d (l₁ ++ l₂)) (ha : a ∉ l₁ ++ l₂)
    (hprev : ∀ b, n'.prev b =
      if b = a then l₁.getLast? else if l₂.head? = some b then some a else n.prev b)
    (hnext : ∀ b, n'.next b =
      if b = a then l₂.head? else if l₁.getLast? = some b then some a else n.next b)
    (hhead : d'.head = (l₁ ++ a :: l₂).head?) (htail : d'.tail = (l₁ ++ a :: l₂).getLast?) :
    IsList n' d' (l₁ ++ a :: l₂) ∧ Apart (l₁ ++ a :: l₂) n n' := by
  refine ⟨⟨?_, hhead, htail, fun m₁ b m₂ heq => links_inserted h ha hprev hnext heq⟩,
    fun b hb => ?_⟩
  · exact List.nodup_middle.mpr (List.nodup_cons.mpr ⟨ha, h.nodup⟩)
  · have hne : b ≠ a := fun heq => hb (by simp [heq])
    rw [hprev, hnext, if_neg hne, if_neg hne, if_neg, if_neg]
    · exact ⟨rfl, rfl⟩
    · exact fun hh => hb (List.mem_append_right _ (List.mem_cons_of_mem _ (List.mem_of_head? hh)))
    · exact fun hh => hb (List.mem_append_left _ (List.mem_of_getLast? hh))

/-- A link of the node that comes in is set, and one of a node that is next to it. -/
theorem update_node (f : α → Option α) (hpa : p ≠ a) (u v : Option α) (b : α) :
    Function.update (Function.update f a u) p v b =
      if b = a then u else if some p = some b then v else f b := by
  rw [Function.update_apply, Function.update_apply]
  by_cases hba : b = a
  · rw [if_neg fun hbp => hpa (hbp.symm.trans hba), if_pos hba, if_pos hba]
  · rw [if_neg hba, if_neg hba]
    exact if_congr ⟨fun hh => congrArg some hh.symm, fun hh => (Option.some.inj hh).symm⟩ rfl rfl

/-- **A node is put at the end.** -/
theorem IsList.addTail (h : IsList n d l) (ha : a ∉ l) :
    ∃ n' d', DoubleList.addTail n d a = some (n', d') ∧ IsList n' d' (l ++ [a]) ∧
      Apart (l ++ [a]) n n' := by
  have htail := h.tail
  rw [← List.append_nil l] at h ha
  unfold DoubleList.addTail
  obtain rfl | ⟨m, t, rfl⟩ := l.eq_nil_or_concat'
  · have hnone : d.tail = none := htail
    have hhead : d.head = none := h.head
    rw [hnone, hhead]
    refine ⟨_, _, rfl, h.insert ha (fun b => ?_) (fun b => ?_) rfl rfl⟩
    · exact Function.update_apply ..
    · exact Function.update_apply ..
  · rw [List.getLast?_concat] at htail
    have hta : t ≠ a := fun heq => ha (by simp [heq])
    rw [htail]
    refine ⟨_, _, rfl, h.insert ha (fun b => ?_) (fun b => ?_) ?_ (List.getLast?_concat ..).symm⟩
    · rw [List.getLast?_concat]
      exact Function.update_apply ..
    · rw [List.getLast?_concat]
      exact update_node n.next hta none (some a) b
    · rw [h.head]
      cases m <;> rfl

/-- **A node is put at the front.** -/
theorem IsList.addHead (h : IsList n d l) (ha : a ∉ l) :
    ∃ n' d', DoubleList.addHead n d a = some (n', d') ∧ IsList n' d' (a :: l) ∧
      Apart (a :: l) n n' := by
  have hhead := h.head
  rw [← List.nil_append l] at h ha
  unfold DoubleList.addHead
  cases l with
  | nil =>
    have hnone : d.head = none := hhead
    have htail : d.tail = none := h.tail
    rw [hnone, htail]
    refine ⟨_, _, rfl, h.insert ha (fun b => ?_) (fun b => ?_) rfl rfl⟩
    · exact Function.update_apply ..
    · exact Function.update_apply ..
  | cons x l =>
    rw [List.head?_cons] at hhead
    have hxa : x ≠ a := fun heq => ha (by simp [heq])
    rw [hhead]
    refine ⟨_, _, rfl, h.insert ha (fun b => ?_) (fun b => ?_) rfl ?_⟩
    · exact update_node n.prev hxa none (some a) b
    · exact Function.update_apply ..
    · exact h.tail.trans List.getLast?_cons_cons.symm

omit [DecidableEq α] in
theorem IsList.tail_iff (h : IsList n d (l₁ ++ p :: l₂)) : d.tail = some p ↔ l₂ = [] := by
  have hnodup := h.nodup
  rw [h.tail]
  obtain rfl | ⟨e, y, rfl⟩ := l₂.eq_nil_or_concat'
  · exact iff_of_true (List.getLast?_concat ..) rfl
  · rw [← List.cons_append, ← List.append_assoc, List.getLast?_concat]
    refine iff_of_false (fun hh => ?_) (by simp)
    cases hh
    simp [List.nodup_append] at hnodup

omit [DecidableEq α] in
theorem IsList.head_iff (h : IsList n d (l₁ ++ p :: l₂)) : d.head = some p ↔ l₁ = [] := by
  have hnodup := h.nodup
  rw [h.head]
  cases l₁ with
  | nil => exact iff_of_true rfl rfl
  | cons x l₁ =>
    refine iff_of_false (fun hh => ?_) (List.cons_ne_nil x l₁)
    cases hh
    simp at hnodup

/-- **A node is put behind another one.** -/
theorem IsList.addBack (h : IsList n d (l₁ ++ p :: l₂)) (ha : a ∉ l₁ ++ p :: l₂) :
    ∃ n' d', DoubleList.addBack n d (some p) a = some (n', d') ∧ IsList n' d' (l₁ ++ p :: a :: l₂) ∧
      Apart (l₁ ++ p :: a :: l₂) n n' := by
  have hpa : p ≠ a := fun heq => ha (by simp [heq])
  unfold DoubleList.addBack
  dsimp only
  cases l₂ with
  | nil =>
    rw [if_pos (h.tail_iff.mpr rfl), List.append_cons]
    exact h.addTail ha
  | cons b l₂ =>
    have hba : b ≠ a := fun heq => ha (by simp [heq])
    have hnext : n.next p = some b := (h.links l₁ p (b :: l₂) rfl).2
    have hnext' : ((n.setPrev a (some p)).setNext a (n.next p)).next p = some b :=
      (Function.update_of_ne hpa ..).trans hnext
    have htail := h.tail
    rw [if_neg fun hh => List.cons_ne_nil b l₂ (h.tail_iff.mp hh), List.append_cons l₁ p]
    rw [List.append_cons] at h ha
    refine ⟨_, _, congrArg (Option.map _) hnext', h.insert ha (fun c => ?_) (fun c => ?_) ?_ ?_⟩
    · rw [List.getLast?_concat]
      exact update_node n.prev hba (some p) (some a) c
    · rw [List.getLast?_concat, List.head?_cons, ← hnext]
      exact update_node n.next hpa (n.next p) (some a) c
    · rw [h.head]
      cases l₁ <;> rfl
    · rw [htail]
      simp [List.getLast?_append]

/-- **A node is put in front of another one.** -/
theorem IsList.addFront (h : IsList n d (l₁ ++ q :: l₂)) (ha : a ∉ l₁ ++ q :: l₂) :
    ∃ n' d', DoubleList.addFront n d (some q) a = some (n', d') ∧ IsList n' d' (l₁ ++ a :: q :: l₂) ∧
      Apart (l₁ ++ a :: q :: l₂) n n' := by
  have hqa : q ≠ a := fun heq => ha (by simp [heq])
  unfold DoubleList.addFront
  dsimp only
  obtain rfl | ⟨e, b, rfl⟩ := l₁.eq_nil_or_concat'
  · rw [if_pos (h.head_iff.mpr rfl)]
    exact h.addHead ha
  · have hba : b ≠ a := fun heq => ha (by simp [heq])
    have hprev : n.prev q = some b :=
      (h.links (e ++ [b]) q l₂ rfl).1.trans (List.getLast?_concat ..)
    have hprev' : ((n.setNext a (some q)).setPrev a (n.prev q)).prev q = some b :=
      (Function.update_of_ne hqa ..).trans hprev
    have hne : e ++ [b] ≠ [] := List.append_ne_nil_of_right_ne_nil e (List.cons_ne_nil b [])
    rw [if_neg fun hh => hne (h.head_iff.mp hh)]
    refine ⟨_, _, congrArg (Option.map _) hprev', h.insert ha (fun c => ?_) (fun c => ?_) ?_ ?_⟩
    · rw [List.getLast?_concat, List.head?_cons, ← hprev]
      exact update_node n.prev hqa (n.prev q) (some a) c
    · rw [List.getLast?_concat]
      exact update_node n.next hba (some q) (some a) c
    · rw [h.head]
      cases e <;> rfl
    · rw [h.tail]
      simp [List.getLast?_append]

/-! ### Nodes that are taken out -/

theorem unlinkNext_spec (h : IsList n d (l₁ ++ a :: l₂)) :
    ∃ n' d', unlinkNext n d a = some (n', d') ∧ n'.next = n.next ∧
      (∀ b, n'.prev b = if l₂.head? = some b then l₁.getLast? else n.prev b) ∧
      d'.head = d.head ∧ d'.tail = (l₁ ++ l₂).getLast? := by
  obtain ⟨hprev, hnext⟩ := h.links l₁ a l₂ rfl
  have htail := h.tail
  unfold unlinkNext
  rw [hnext, hprev]
  cases l₂ with
  | nil =>
    rw [List.getLast?_concat] at htail
    dsimp only [List.head?_nil]
    rw [if_pos htail]
    exact ⟨_, _, rfl, rfl, fun b => (if_neg (by simp)).symm, rfl, by rw [List.append_nil]⟩
  | cons b l₂ =>
    have hb := (h.links (l₁ ++ [a]) b l₂ (by simp)).1
    rw [List.getLast?_concat] at hb
    dsimp only [List.head?_cons]
    rw [if_pos hb]
    refine ⟨_, _, rfl, rfl, fun c => ?_, rfl, htail.trans (by simp [List.getLast?_append])⟩
    by_cases hc : c = b
    · subst hc
      exact (Function.update_self ..).trans (if_pos rfl).symm
    · exact (Function.update_of_ne hc ..).trans (if_neg fun hh => hc (Option.some.inj hh).symm).symm

theorem unlinkPrev_spec (hprev : n.prev a = l₁.getLast?) (hnext : n.next a = l₂.head?)
    (hlast : ∀ c, l₁.getLast? = some c → n.next c = some a) (hhead : d.head = (l₁ ++ a :: l₂).head?) :
    ∃ n' d', unlinkPrev n d a = some (n', d') ∧ n'.prev = n.prev ∧
      (∀ b, n'.next b = if l₁.getLast? = some b then l₂.head? else n.next b) ∧
      d'.tail = d.tail ∧ d'.head = (l₁ ++ l₂).head? := by
  unfold unlinkPrev
  rw [hprev, hnext]
  obtain rfl | ⟨m, c, rfl⟩ := l₁.eq_nil_or_concat'
  · dsimp only [List.getLast?_nil]
    rw [if_pos (show d.head = some a from hhead)]
    exact ⟨_, _, rfl, rfl, fun b => (if_neg (by simp)).symm, rfl, rfl⟩
  · have hc := hlast c (List.getLast?_concat ..)
    rw [List.getLast?_concat]
    dsimp only
    rw [if_pos hc]
    refine ⟨_, _, rfl, rfl, fun b => ?_, rfl, hhead.trans (by cases m <;> rfl)⟩
    by_cases hb : b = c
    · subst hb
      exact (Function.update_self ..).trans (if_pos rfl).symm
    · exact (Function.update_of_ne hb ..).trans (if_neg fun hh => hb (Option.some.inj hh).symm).symm

/-- The links where the nodes around `a` have been linked with each other. -/
theorem links_removed (h : IsList n d (l₁ ++ a :: l₂))
    (hprev : ∀ b, n'.prev b = if l₂.head? = some b then l₁.getLast? else n.prev b)
    (hnext : ∀ b, n'.next b = if l₁.getLast? = some b then l₂.head? else n.next b)
    {m₁ m₂ : List α} (heq : l₁ ++ l₂ = m₁ ++ b :: m₂) :
    n'.prev b = m₁.getLast? ∧ n'.next b = m₂.head? := by
  have hnodup := h.nodup
  rw [hprev, hnext]
  -- `b` comes behind `a`, or before it
  have hbehind {e : List α} (hl₂ : l₂ = e ++ b :: m₂) (hm₁ : m₁ = l₁ ++ e) :
      (if l₂.head? = some b then l₁.getLast? else n.prev b) = m₁.getLast? ∧
        (if l₁.getLast? = some b then l₂.head? else n.next b) = m₂.head? := by
    subst hl₂ hm₁
    obtain ⟨hp, hn⟩ := h.links (l₁ ++ a :: e) b m₂ (by simp)
    simp only [List.nodup_append, List.nodup_cons, List.mem_append, List.mem_cons] at hnodup
    rw [if_neg fun hh => hnodup.2.2 b (List.mem_of_getLast? hh) b (by simp) rfl]
    refine ⟨?_, hn⟩
    cases e with
    | nil =>
      rw [List.append_nil]
      exact if_pos rfl
    | cons x e =>
      rw [if_neg, hp]
      · simp [List.getLast?_append]
      · intro hh
        cases hh
        exact hnodup.2.1.2.2.2 b (by simp) b (by simp) rfl
  rcases List.append_eq_append_iff.mp heq with ⟨e, hm₁, hl₂⟩ | ⟨e, hl₁, he⟩
  · exact hbehind hl₂ hm₁
  · cases e with
    | nil => exact hbehind (e := []) he.symm (by rw [hl₁, List.append_nil, List.append_nil])
    | cons c e =>
      obtain ⟨rfl, rfl⟩ := List.cons_eq_cons.mp he
      subst hl₁
      obtain ⟨hp, hn⟩ := h.links m₁ b (e ++ a :: l₂) (by simp)
      simp only [List.nodup_append, List.nodup_cons, List.mem_append, List.mem_cons] at hnodup
      rw [if_neg fun hh => hnodup.2.2 b (by simp) b (Or.inr (List.mem_of_head? hh)) rfl]
      refine ⟨hp, ?_⟩
      obtain rfl | ⟨e, y, rfl⟩ := e.eq_nil_or_concat'
      · rw [if_pos (List.getLast?_concat ..)]
        rfl
      · rw [if_neg, hn]
        · cases e <;> rfl
        · rw [← List.cons_append, ← List.append_assoc, List.getLast?_concat]
          intro hh
          cases hh
          exact hnodup.1.2.1.1 (by simp)

/-- **A node is taken out.** -/
theorem IsList.remove (h : IsList n d (l₁ ++ a :: l₂)) :
    ∃ n' d', DoubleList.remove n d a = some (n', d') ∧ IsList n' d' (l₁ ++ l₂) ∧
      Apart (l₁ ++ l₂) n n' := by
  obtain ⟨n₁, d₁, h₁, hnext₁, hprev₁, hhead₁, htail₁⟩ := unlinkNext_spec h
  obtain ⟨hprev, hnext⟩ := h.links l₁ a l₂ rfl
  have hnodup := h.nodup
  have hself : n₁.prev a = l₁.getLast? := by
    rw [hprev₁, hprev, ite_self]
  have hlast (c : α) (hc : l₁.getLast? = some c) : n₁.next c = some a := by
    obtain ⟨m, rfl⟩ := List.getLast?_eq_some_iff.mp hc
    rw [hnext₁]
    exact (h.links m c (a :: l₂) (by simp)).2
  obtain ⟨n₂, d₂, h₂, hprev₂, hnext₂, htail₂, hhead₂⟩ :=
    unlinkPrev_spec (d := d₁) hself (hnext₁ ▸ hnext) hlast (hhead₁.trans h.head)
  rw [hnext₁] at hnext₂
  rw [← hprev₂] at hprev₁
  refine ⟨n₂, d₂, by rw [DoubleList.remove, h₁]; exact h₂,
    ⟨?_, hhead₂, htail₂.trans htail₁, ?_⟩, fun b hb => ?_⟩
  · exact hnodup.sublist (List.Sublist.append_left (List.sublist_cons_self a l₂) l₁)
  · exact fun m₁ b m₂ heq => links_removed h hprev₁ hnext₂ heq
  · rw [hnext₂, hprev₁, if_neg, if_neg]
    · exact ⟨rfl, rfl⟩
    · exact fun hh => hb (List.mem_append_right l₁ (List.mem_of_head? hh))
    · exact fun hh => hb (List.mem_append_left l₂ (List.mem_of_getLast? hh))

/-- **The head is taken out.** -/
theorem IsList.pop (h : IsList n d (a :: l)) :
    ∃ n' d', DoubleList.pop n d = some (some a, n', d') ∧ IsList n' d' l ∧ Apart l n n' := by
  obtain ⟨n', d', heq, h', hn⟩ := IsList.remove (show IsList n d ([] ++ a :: l) from h)
  refine ⟨n', d', ?_, h', hn⟩
  unfold DoubleList.pop
  rw [h.head, List.head?_cons]
  dsimp only
  rw [heq]
  rfl

theorem pop_empty (h : IsList n d []) : DoubleList.pop n d = some (none, n, d) := by
  unfold DoubleList.pop
  rw [h.head]
  rfl

end

end ChatShow.Lib.DoubleList
