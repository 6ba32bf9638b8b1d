import ChatShow.Lib.Runs
import Mathlib.Data.List.Nodup
import Mathlib.Data.List.Perm.Basic
import Mathlib.Data.Int.Notation
import Mathlib.Logic.Function.Basic

/-! # Safe smart pointers

`Safe_Smart_Ptr` and the count of `Ref_Object`. Objects and pointers have numbers, and a pointer may be
a member of an object: it is destroyed with it, and lets go of its own object in turn. `none` is the
use of an object or of a pointer that is no longer there. The count is a `long`, and a pointer takes
as many bytes of memory, so it does not overflow. -/

namespace ChatShow.CommBase.SmartPtr

structure Heap where
  /-- the pointers that there are, the latest first -/
  ptrs : List ℕ := []
  /-- `t_` -/
  target : ℕ → Option ℕ := fun _ => none
  /-- the object that a pointer is a member of -/
  home : ℕ → Option ℕ := fun _ => none
  /-- `ref_count_` -/
  count : ℕ → ℤ := fun _ => 0
  /-- the objects so far -/
  made : ℕ := 0
  /-- the objects that have been deleted, in this order -/
  deleted : List ℕ := []
  /-- whether there has been a pointer to the object -/
  held : ℕ → Bool := fun _ => false

namespace Heap

/-- The object is there. -/
def Alive (s : Heap) (o : ℕ) : Prop := o < s.made ∧ o ∉ s.deleted

instance (s : Heap) (o : ℕ) : Decidable (s.Alive o) := inferInstanceAs (Decidable (_ ∧ _))

/-- The pointers that are members of an object, in the order they are destroyed in. -/
def members (s : Heap) (o : ℕ) : List ℕ := s.ptrs.filter fun p => s.home p = some o

/-- The number of pointers to an object. -/
def number (s : Heap) (o : ℕ) : ℕ := s.ptrs.countP fun p => s.target p = some o

/-! ### `Ref_Object` -/

/-- `new T`. -/
def newObject (s : Heap) : Heap :=
  { s with count := Function.update s.count s.made 0, made := s.made + 1 }

/-- `addref`, of what a pointer has. -/
def addref (s : Heap) : Option ℕ → Option Heap
  | none => some s
  | some o =>
    if s.Alive o then
      some { s with
        count := Function.update s.count o (s.count o + 1), held := Function.update s.held o true }
    else none

/-- `release`, of what a pointer has: the object is deleted when its count is down at 0, and its
members are what is to be destroyed then. -/
def release (s : Heap) : Option ℕ → Option (Heap × List ℕ)
  | none => some (s, [])
  | some o =>
    if s.Alive o then
      let s := { s with count := Function.update s.count o (s.count o - 1) }
      if s.count o ≤ 0 then some ({ s with deleted := s.deleted ++ [o] }, s.members o)
      else some (s, [])
    else none

/-! ### `Safe_Smart_Ptr` -/

/-- A pointer is gone. -/
def drop (s : Heap) (x : ℕ) : Heap := { s with ptrs := s.ptrs.erase x }

/-- A pointer comes, as a member of `home`. -/
def place (s : Heap) (x : ℕ) (home p : Option ℕ) : Heap :=
  { s with
    ptrs := x :: s.ptrs
    target := Function.update s.target x p
    home := Function.update s.home x home }

/-- A pointer is set. -/
def point (s : Heap) (x : ℕ) (p : Option ℕ) : Heap :=
  { s with target := Function.update s.target x p }

/-- The destructors of pointers: what one of them deletes is destroyed before the next. There are as
many turns as pointers. -/
def destroyAll : ℕ → List ℕ → Heap → Option Heap
  | _, [], s => some s
  | 0, _ :: _, _ => none
  | n + 1, x :: xs, s =>
    ((s.drop x).release (s.target x)).bind fun r => destroyAll n (r.2 ++ xs) r.1

/-- `if(t_) t_->release()`. -/
def letGo (s : Heap) (t : Option ℕ) : Option Heap :=
  (s.release t).bind fun r => destroyAll s.ptrs.length r.2 r.1

/-- `Safe_Smart_Ptr()` and `Safe_Smart_Ptr(T *)`. -/
def construct (s : Heap) (x : ℕ) (home p : Option ℕ) : Option Heap := (s.place x home p).addref p

/-- Both copy constructors. -/
def copy (s : Heap) (x : ℕ) (home : Option ℕ) (y : ℕ) : Option Heap :=
  s.construct x home (s.target y)

/-- Both `operator=` for smart pointers. -/
def assign (s : Heap) (x y : ℕ) : Option Heap :=
  (s.letGo (s.target x)).bind fun s =>
    if x ∈ s.ptrs ∧ y ∈ s.ptrs then
      (s.point x (s.target y)).addref (s.target y)
    else none

/-- `~Safe_Smart_Ptr`. -/
def destroy (s : Heap) (x : ℕ) : Option Heap := (s.drop x).letGo (s.target x)

/-- `x = p` for a raw pointer: the `operator=` for one is a template whose parameter is in none of its
arguments, so that a temporary is made and assigned. -/
def assignRaw (s : Heap) (temp x : ℕ) (p : Option ℕ) : Option Heap :=
  (s.construct temp none p).bind fun s => (s.assign x temp).bind fun s => s.destroy temp

end Heap

/-! ### Runs -/

inductive Op
  | newObject
  | construct (x : ℕ) (home p : Option ℕ)
  | copy (x : ℕ) (home : Option ℕ) (y : ℕ)
  | assign (x y : ℕ)
  | assignRaw (temp x : ℕ) (p : Option ℕ)
  | destroy (x : ℕ)

def Heap.step (s : Heap) : Op → Option Heap
  | .newObject => some s.newObject
  | .construct x home p => s.construct x home p
  | .copy x home y => s.copy x home y
  | .assign x y => s.assign x y
  | .assignRaw temp x p => s.assignRaw temp x p
  | .destroy x => s.destroy x

/-- What C++ asks of the caller: a pointer is made where there is none, and used while it is there, and a
raw pointer is to an object that is there. -/
def Valid (s : Heap) : Op → Prop
  | .newObject => True
  | .construct x home p => x ∉ s.ptrs ∧ (∀ o ∈ home, s.Alive o) ∧ ∀ o ∈ p, s.Alive o
  | .copy x home y => x ∉ s.ptrs ∧ (∀ o ∈ home, s.Alive o) ∧ y ∈ s.ptrs
  | .assign x y => x ∈ s.ptrs ∧ y ∈ s.ptrs
  | .assignRaw temp x p => temp ∉ s.ptrs ∧ x ∈ s.ptrs ∧ ∀ o ∈ p, s.Alive o
  | .destroy x => x ∈ s.ptrs

instance (s : Heap) : ∀ a, Decidable (Valid s a)
  | .newObject => .isTrue trivial
  | .construct _ home p =>
    inferInstanceAs (Decidable (_ ∧ (∀ o ∈ home, s.Alive o) ∧ ∀ o ∈ p, s.Alive o))
  | .copy _ home _ => inferInstanceAs (Decidable (_ ∧ (∀ o ∈ home, s.Alive o) ∧ _))
  | .assign _ _ => inferInstanceAs (Decidable (_ ∧ _))
  | .assignRaw _ _ p => inferInstanceAs (Decidable (_ ∧ _ ∧ ∀ o ∈ p, s.Alive o))
  | .destroy _ => inferInstanceAs (Decidable (_ ∈ _))

/-- The count of an object is the number of pointers to it, and it has been deleted once if it has had
pointers and has none, and else not. -/
structure Counted (s : Heap) : Prop where
  count : ∀ o, s.Alive o → s.count o = s.number o
  deleted : ∀ o, s.deleted.count o = if s.held o = true ∧ s.number o = 0 then 1 else 0

/-- The objects that are deleted when the pointer `x` lets go: the pointers to them are `x`, and members
of such objects. -/
inductive Dies (s : Heap) (x : ℕ) : ℕ → Prop
  | mk {o : ℕ} (hptr : ∃ p ∈ s.ptrs, s.target p = some o)
      (hmember : ∀ p ∈ s.ptrs, s.target p = some o → p ≠ x → s.home p ≠ none)
      (hdies : ∀ p ∈ s.ptrs, s.target p = some o → p ≠ x → ∀ o', s.home p = some o' → Dies s x o') :
      Dies s x o

/-- The pointer is a member of an object that is deleted when `x` lets go. -/
def Lost (s : Heap) (x p : ℕ) : Prop := ∃ o, s.home p = some o ∧ Dies s x o

/-- An assignment whose target does not take itself or its source away, and is not from itself as the
only pointer to its object. -/
def Safe (s : Heap) : Op → Prop
  | .assign x y => ¬ Lost s x x ∧ ¬ Lost s x y ∧
      (x = y → ∀ o, s.target x = some o → ∃ p ∈ s.ptrs, p ≠ x ∧ s.target p = some o)
  | .assignRaw temp x p => ¬ Lost (s.place temp none p) x x
  | _ => True

end ChatShow.CommBase.SmartPtr
