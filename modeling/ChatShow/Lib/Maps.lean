import Std.Data.TreeMap.Lemmas
import Mathlib.Data.List.Basic
import Mathlib.Tactic.Common

/-! # Ordered maps

What the operations of an ordered map do to a lookup, with the equality of keys in place of their
comparison; the keys whose values meet a condition (`keysOf`), and erasing a list of keys
(`eraseAll`). -/

namespace ChatShow.Lib.Maps

open Std

variable {K V W : Type*} [Ord K] [TransOrd K] [LawfulEqOrd K] [DecidableEq K]

theorem get_insert (m : TreeMap K V) (k a : K) (v : V) :
    (m.insert k v)[a]? = if k = a then some v else m[a]? := by
  rw [TreeMap.getElem?_insert]
  simp only [Std.compare_eq_iff_eq]

theorem get_erase (m : TreeMap K V) (k a : K) :
    (m.erase k)[a]? = if k = a then none else m[a]? := by
  rw [TreeMap.getElem?_erase]
  simp only [Std.compare_eq_iff_eq]

theorem get_insert_self (m : TreeMap K V) (k : K) (v : V) : (m.insert k v)[k]? = some v := by
  rw [get_insert, if_pos rfl]

theorem get_insert_of_ne (m : TreeMap K V) {k a : K} (v : V) (h : k ≠ a) :
    (m.insert k v)[a]? = m[a]? := by
  rw [get_insert, if_neg h]

theorem get_erase_self (m : TreeMap K V) (k : K) : (m.erase k)[k]? = none := by
  rw [get_erase, if_pos rfl]

theorem get_erase_of_ne (m : TreeMap K V) {k a : K} (h : k ≠ a) : (m.erase k)[a]? = m[a]? := by
  rw [get_erase, if_neg h]

theorem get_insertIfNew (m : TreeMap K V) (k a : K) (v : V) :
    (m.insertIfNew k v)[a]? = if k = a ∧ m[k]? = none then some v else m[a]? := by
  rw [TreeMap.getElem?_insertIfNew]
  refine if_congr (and_congr Std.compare_eq_iff_eq ?_) rfl rfl
  rw [TreeMap.mem_iff_isSome_getElem?, Option.not_isSome_iff_eq_none]

omit [DecidableEq K] in
theorem get_map (m : TreeMap K V) (f : V → W) (a : K) :
    (m.map fun _ v => f v)[a]? = m[a]?.map f := by
  rw [TreeMap.getElem?_map]

omit [DecidableEq K] in
theorem get_filterMap (m : TreeMap K V) (f : V → Option W) (a : K) :
    (m.filterMap fun _ v => f v)[a]? = m[a]?.bind f :=
  TreeMap.getElem?_filterMap'

/-- The keys whose values meet `p`, in order. -/
def keysOf (m : TreeMap K V) (p : V → Bool) : List K :=
  (m.toList.filter fun e => p e.2).map Prod.fst

omit [DecidableEq K] in
theorem mem_keysOf {m : TreeMap K V} {p : V → Bool} {k : K} :
    k ∈ keysOf m p ↔ ∃ v, m[k]? = some v ∧ p v := by
  unfold keysOf
  simp only [List.mem_map, List.mem_filter, Prod.exists, exists_and_right, exists_eq_right,
    TreeMap.mem_toList_iff_getElem?_eq_some]

omit [DecidableEq K] in
theorem nodup_keysOf (m : TreeMap K V) (p : V → Bool) : (keysOf m p).Nodup := by
  have h : m.toList.Pairwise fun a b => a.1 ≠ b.1 :=
    m.distinct_keys_toList.imp fun hab heq => hab (Std.compare_eq_iff_eq.mpr heq)
  exact List.pairwise_map.mpr (h.sublist List.filter_sublist)

omit [Ord K] [TransOrd K] [LawfulEqOrd K] in
theorem ite_mem_cons (a k : K) (ks : List K) (x y : W) :
    (if a ∈ k :: ks then x else y) = if a ∈ ks then x else if k = a then x else y := by
  by_cases hk : k = a
  · rw [if_pos (List.mem_cons.mpr (Or.inl hk.symm)), if_pos hk, ite_self]
  · rw [if_neg hk]
    refine if_congr ?_ rfl rfl
    rw [List.mem_cons, or_iff_right (Ne.symm hk)]

def eraseAll (m : TreeMap K V) (ks : List K) : TreeMap K V := ks.foldl TreeMap.erase m

theorem get_eraseAll (m : TreeMap K V) (ks : List K) (a : K) :
    (eraseAll m ks)[a]? = if a ∈ ks then none else m[a]? := by
  induction ks generalizing m with
  | nil => rfl
  | cons k ks ih =>
    rw [eraseAll, List.foldl_cons, ite_mem_cons]
    refine (ih _).trans ?_
    rw [get_erase]

/-! ### Lists sorted into a map by a key of their elements -/

omit [Ord K] [TransOrd K] [LawfulEqOrd K] in
theorem filter_flatMap_of_forall_ne {l : List (K × List V)} {key : V → K} {c : K}
    (hkey : ∀ e ∈ l, ∀ v ∈ e.2, key v = e.1) (h : ∀ e ∈ l, e.1 ≠ c) :
    (l.flatMap Prod.snd).filter (fun v => key v = c) = [] := by
  rw [List.filter_eq_nil_iff]
  intro v hv
  obtain ⟨e, he, hve⟩ := List.mem_flatMap.mp hv
  rw [hkey e he v hve, decide_eq_true_iff]
  exact h e he

omit [Ord K] [TransOrd K] [LawfulEqOrd K] in
theorem filter_flatMap_of_mem {l : List (K × List V)} {key : V → K} {c : K} {q : List V}
    (hd : l.Pairwise fun a b => a.1 ≠ b.1) (hkey : ∀ e ∈ l, ∀ v ∈ e.2, key v = e.1)
    (hq : (c, q) ∈ l) : (l.flatMap Prod.snd).filter (fun v => key v = c) = q := by
  induction l with
  | nil => exact absurd hq List.not_mem_nil
  | cons e l ih =>
    have hkey' : ∀ e ∈ l, ∀ v ∈ e.2, key v = e.1 := fun e he =>
      hkey e (List.mem_cons_of_mem _ he)
    obtain ⟨hne, hd'⟩ := List.pairwise_cons.mp hd
    rw [List.flatMap_cons, List.filter_append]
    rcases List.mem_cons.mp hq with rfl | hq'
    · have hrest : ∀ e ∈ l, e.1 ≠ c := fun e he => (hne e he).symm
      have hall : q.filter (fun v => key v = c) = q :=
        List.filter_eq_self.mpr fun v hv =>
          decide_eq_true (hkey (c, q) List.mem_cons_self v hv)
      rw [filter_flatMap_of_forall_ne hkey' hrest, List.append_nil]
      exact hall
    · have hnil : e.2.filter (fun v => key v = c) = [] := by
        rw [List.filter_eq_nil_iff]
        intro v hv
        rw [hkey e List.mem_cons_self v hv, decide_eq_true_iff]
        exact hne _ hq'
      rw [hnil, List.nil_append]
      exact ih hd' hkey' hq'

/-- The elements with the key `c`, in a map that has sorted them by their keys. -/
theorem filter_flatMap_toList {m : TreeMap K (List V)} {key : V → K} (c : K)
    (hkey : ∀ k q, m[k]? = some q → ∀ v ∈ q, key v = k) :
    (m.toList.flatMap Prod.snd).filter (fun v => key v = c) = m[c]?.getD [] := by
  have hkey' : ∀ e ∈ m.toList, ∀ v ∈ e.2, key v = e.1 := fun e he =>
    hkey e.1 e.2 (TreeMap.mem_toList_iff_getElem?_eq_some.mp he)
  rcases hc : m[c]? with _ | q
  · refine filter_flatMap_of_forall_ne hkey' fun e he hec => ?_
    have := TreeMap.mem_toList_iff_getElem?_eq_some.mp he
    rw [hec, hc] at this
    cases this
  · have hd : m.toList.Pairwise fun a b => a.1 ≠ b.1 :=
      m.distinct_keys_toList.imp fun hab heq => hab (Std.compare_eq_iff_eq.mpr heq)
    exact filter_flatMap_of_mem hd hkey' (TreeMap.mem_toList_iff_getElem?_eq_some.mpr hc)

/-! ### The entries as a list -/

omit [DecidableEq K] in
theorem nodup_toList (m : TreeMap K V) : m.toList.Nodup :=
  m.distinct_keys_toList.imp fun hab heq => hab (Std.compare_eq_iff_eq.mpr (congrArg Prod.fst heq))

theorem toList_insert_of_none {m : TreeMap K V} {k : K} (v : V) (h : m[k]? = none) :
    (m.insert k v).toList.Perm ((k, v) :: m.toList) := by
  have hk : (k, v) ∉ m.toList := fun hmem => by
    rw [TreeMap.mem_toList_iff_getElem?_eq_some, h] at hmem
    cases hmem
  refine (List.perm_ext_iff_of_nodup (nodup_toList _) (List.nodup_cons.mpr ⟨hk, nodup_toList m⟩)).mpr ?_
  rintro ⟨a, b⟩
  rw [List.mem_cons, TreeMap.mem_toList_iff_getElem?_eq_some, TreeMap.mem_toList_iff_getElem?_eq_some,
    get_insert, Prod.mk.injEq]
  split_ifs with ha
  · subst ha
    simp [h, eq_comm]
  · simp [Ne.symm ha]

theorem toList_erase_of_some {m : TreeMap K V} {k : K} {v : V} (h : m[k]? = some v) :
    m.toList.Perm ((k, v) :: (m.erase k).toList) := by
  have hk : (k, v) ∉ (m.erase k).toList := fun hmem => by
    rw [TreeMap.mem_toList_iff_getElem?_eq_some, get_erase_self] at hmem
    cases hmem
  refine (List.perm_ext_iff_of_nodup (nodup_toList m)
    (List.nodup_cons.mpr ⟨hk, nodup_toList _⟩)).mpr ?_
  rintro ⟨a, b⟩
  rw [List.mem_cons, TreeMap.mem_toList_iff_getElem?_eq_some, TreeMap.mem_toList_iff_getElem?_eq_some,
    get_erase, Prod.mk.injEq]
  split_ifs with ha
  · subst ha
    simp [h, eq_comm]
  · simp [Ne.symm ha]

end ChatShow.Lib.Maps
