import ChatShow.Lib.Maps
import Std.Data.TreeSet.Lemmas

/-! # Maps of sets

A map from keys to sets of values is a relation between the two (`Has`). The operations say what becomes
of the relation; a value is taken out of a set so that no empty set is left (`removeFrom`), and what
only adds and removes so has none (`NoEmpty`). -/

namespace ChatShow.Lib.MultiMaps

open Std ChatShow.Lib.Maps

variable {K V : Type*} [Ord K] [Ord V]

/-- The value is in the set of the key. -/
def Has (m : TreeMap K (TreeSet V)) (k : K) (v : V) : Prop :=
  ∃ set : TreeSet V, m[k]? = some set ∧ v ∈ set

instance (m : TreeMap K (TreeSet V)) (k : K) (v : V) : Decidable (Has m k v) :=
  decidable_of_iff ((m[k]?.any (·.contains v)) = true) (by
    rw [Option.any_eq_true]
    exact Iff.rfl)

/-- The value is put into the set of the key, which is made where there is none. -/
def addTo (m : TreeMap K (TreeSet V)) (k : K) (v : V) : TreeMap K (TreeSet V) :=
  m.insert k ((m[k]?.getD ∅).insert v)

/-- The value is taken out of the set of the key, and the set with it where it was the last. -/
def removeFrom (m : TreeMap K (TreeSet V)) (k : K) (v : V) : TreeMap K (TreeSet V) :=
  match m[k]? with
  | none => m
  | some set => if (set.erase v).isEmpty then m.erase k else m.insert k (set.erase v)

def NoEmpty (m : TreeMap K (TreeSet V)) : Prop := 
  ∀ (k : K) (set : TreeSet V), m[k]? = some set → set.isEmpty = false

variable {m : TreeMap K (TreeSet V)} {k a : K} {v b : V}

theorem mem_getD : v ∈ m[k]?.getD ∅ ↔ Has m k v := by
  unfold Has
  cases m[k]? with
  | none => simp [TreeSet.not_mem_emptyc]
  | some set => simp

section

variable [TransOrd K]

theorem not_has_empty : ¬ Has (∅ : TreeMap K (TreeSet V)) k v := by
  rintro ⟨set, h, -⟩
  rw [TreeMap.getElem?_emptyc] at h
  cases h

theorem noEmpty_empty : NoEmpty (∅ : TreeMap K (TreeSet V)) := by
  intro k set h
  rw [TreeMap.getElem?_emptyc] at h
  cases h

end

variable [TransOrd K] [LawfulEqOrd K] [DecidableEq K]

theorem has_insert {set : TreeSet V} : Has (m.insert k set) a b ↔ if k = a then b ∈ set else Has m a b := by
  unfold Has
  rw [get_insert]
  split_ifs
  · simp only [Option.some.injEq, exists_eq_left']
  · rfl

theorem has_erase : Has (m.erase k) a b ↔ Has m a b ∧ a ≠ k := by
  unfold Has
  rw [get_erase]
  split_ifs with h
  · simp [h]
  · simp [Ne.symm h]

theorem NoEmpty.insert (h : NoEmpty m) {set : TreeSet V} (hs : set.isEmpty = false) :
    NoEmpty (m.insert k set) := by
  intro a set' ha
  rw [get_insert] at ha
  split_ifs at ha
  · cases ha
    exact hs
  · exact h a set' ha

theorem NoEmpty.removeFrom (h : NoEmpty m) : NoEmpty (removeFrom m k v) := by
  unfold MultiMaps.removeFrom
  split
  · exact h
  split_ifs with he
  · intro a set ha
    rw [get_erase] at ha
    split_ifs at ha
    exact h a set ha
  · exact h.insert (Bool.not_eq_true _ ▸ he)

variable [TransOrd V]

theorem NoEmpty.addTo (h : NoEmpty m) : NoEmpty (addTo m k v) :=
  h.insert (TreeSet.isEmpty_insert)

variable [LawfulEqOrd V]

theorem has_addTo : Has (addTo m k v) a b ↔ (a = k ∧ b = v) ∨ Has m a b := by
  unfold addTo
  rw [has_insert, TreeSet.mem_insert, mem_getD, Std.compare_eq_iff_eq]
  split_ifs with h
  · subst h
    rw [and_iff_right rfl, eq_comm]
  · rw [or_iff_right fun h' => h h'.1.symm]

theorem has_removeFrom : Has (removeFrom m k v) a b ↔ Has m a b ∧ ¬ (a = k ∧ b = v) := by
  unfold removeFrom
  rcases hk : m[k]? with _ | set
  · dsimp only
    refine (and_iff_left_of_imp ?_).symm
    rintro ⟨set, hset, -⟩ ⟨rfl, -⟩
    rw [hk] at hset
    cases hset
  dsimp only
  split_ifs with he
  · rw [has_erase]
    refine and_congr_right fun hab => ⟨fun hne h => hne h.1, fun hne hak => ?_⟩
    subst hak
    obtain ⟨set', hset, hb⟩ := hab
    rw [hk] at hset
    cases hset
    refine TreeSet.isEmpty_iff_forall_not_mem.mp he b (TreeSet.mem_erase.mpr ⟨?_, hb⟩)
    exact fun h => hne ⟨rfl, (Std.compare_eq_iff_eq.mp h).symm⟩
  · rw [has_insert, TreeSet.mem_erase, ne_eq, Std.compare_eq_iff_eq]
    split_ifs with h
    · subst h
      have hb : Has m k b ↔ b ∈ set := by
        unfold Has
        simp only [hk, Option.some.injEq, exists_eq_left']
      rw [hb, and_iff_right rfl, and_comm, eq_comm]
    · rw [and_iff_left fun h' => h h'.1.symm]

/-! ### A value out of the sets of several keys -/

def removeAll (m : TreeMap K (TreeSet V)) (ks : List K) (v : V) : TreeMap K (TreeSet V) :=
  ks.foldl (fun m k => removeFrom m k v) m

theorem has_removeAll {ks : List K} : Has (removeAll m ks v) a b ↔ Has m a b ∧ ¬ (a ∈ ks ∧ b = v) := by
  induction ks generalizing m with
  | nil => simp [removeAll]
  | cons k ks ih =>
    rw [removeAll, List.foldl_cons]
    refine ih.trans ?_
    rw [has_removeFrom, List.mem_cons]
    tauto

omit [TransOrd V] [LawfulEqOrd V] in
theorem NoEmpty.removeAll {ks : List K} (h : NoEmpty m) : NoEmpty (removeAll m ks v) := by
  induction ks generalizing m with
  | nil => exact h
  | cons k ks ih => exact ih h.removeFrom

end ChatShow.Lib.MultiMaps
