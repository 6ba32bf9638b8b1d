import ChatShow.Lib.Chains
import ChatShow.Lib.LinkedQueue
import Mathlib.Data.Int.Notation
import Mathlib.Data.List.Perm.Basic

/-! # The hash of strings

`str_hash` has a bucket for each character with which a key may begin, and one more for all others. A
bucket is a chain of nodes; a key is put in front of its bucket, and the nodes that are deleted are
freed. Strings are lists of bytes, as they stand in front of their NUL, and a value is not `NULL`. `none`
is a fault: a bucket that is not there, which is where the keys that begin with a tab go, or a chain that
does not end. -/

namespace ChatShow.Antlib.Hash

open ChatShow.Lib.Chains

variable {V D : Type*}

/-! ### The hash -/

def STRHASH_CAP_MAX : ℕ := 80

/-- The characters that `init_hash_master` numbers, from 1 on. -/
def keyChars : List UInt8 :=
  ("abcdefghijklmnopqrstuvwxyzABCDEFGHIJKLMNOPQRSTUVWXYZ0123456789" ++
    "!@#$%^=&*-_.?;:, \t").toList.map Char.toUInt8

/-- `_g_keylist`. -/
def keylist (c : UInt8) : ℕ := if c ∈ keyChars then keyChars.idxOf c + 1 else 0

def getStrindex : List UInt8 → ℕ
  | [] => 0
  | c :: _ => keylist c

/-- `_key` and `_vl` of a node. -/
structure Entry (V : Type*) where
  key : List UInt8
  vl : V

/-- `str_hash` with its nodes, of which `made` have been allocated. -/
structure StrHash (V : Type*) where
  count : Int32 := 0
  cap : ℕ → Option ℕ := fun _ => none
  node : Heap (Entry V) := fun _ => none
  made : ℕ := 0

/-- `strcmp(node->_key,key) == 0`. -/
def sameKey (key : List UInt8) (e : Entry V) : Bool := e.key = key

/-- What `doall_strhash` does for a pair, and whether its node is to go. -/
def doF (dof : V → D → ℤ × D) (freef : V → D → D) (e : Entry V) (data : D) : Bool × D :=
  let r := dof e.vl data
  if r.1 ≠ 0 then (true, freef e.vl r.2) else (false, r.2)

namespace StrHash

/-- `get_str_hash`, which returns `NULL` where the key is not there. -/
def getStrHash (h : StrHash V) (key : List UInt8) : Option (Option V) :=
  if getStrindex key < STRHASH_CAP_MAX then
    (seek h.node (sameKey key) h.made (h.cap (getStrindex key))).map fun e => e.map Entry.vl
  else none

def setStrHash (h : StrHash V) (key : List UInt8) (vl : V) : Option (ℤ × StrHash V) :=
  (h.getStrHash key).map fun r =>
    if r.isSome then (-1, h)
    else (0,
      { count := h.count + 1
        cap := Function.update h.cap (getStrindex key) (some h.made)
        node := Function.update h.node h.made (some ⟨⟨key, vl⟩, h.cap (getStrindex key)⟩)
        made := h.made + 1 })

/-- `del_str_hash`: the value of the key, or `NULL`. -/
def delStrHash (h : StrHash V) (key : List UInt8) : Option (Option V × StrHash V) :=
  if getStrindex key < STRHASH_CAP_MAX then
    (remove (sameKey key) h.made h.node (h.cap (getStrindex key))).map fun r =>
      (r.1.map Entry.vl,
        { h with node := r.2.1, cap := Function.update h.cap (getStrindex key) r.2.2 })
  else none

/-- The loop of `doall_strhash` over the buckets. -/
def doallLoop (act : Entry V → D → Bool × D) : List ℕ → StrHash V → D → Option (D × StrHash V)
  | [], h, data => some (data, h)
  | i :: is, h, data => (sweep act h.made h.node (h.cap i) data).bind fun r =>
    doallLoop act is { h with node := r.1, cap := Function.update h.cap i r.2.1 } r.2.2

def doallStrhash (h : StrHash V) (dof : V → D → ℤ × D) (freef : V → D → D) (data : D) :
    Option (D × StrHash V) :=
  doallLoop (doF dof freef) (List.range STRHASH_CAP_MAX) h data

end StrHash

/-! ### The operations -/

inductive Op (V D : Type*)
  | set (key : List UInt8) (vl : V)
  | get (key : List UInt8)
  | del (key : List UInt8)
  | doall (dof : V → D → ℤ × D) (freef : V → D → D) (data : D)

/-- What an operation returns; `doall_strhash` leaves its data. -/
inductive Ret (V D : Type*)
  | int (r : ℤ)
  | ptr (vl : Option V)
  | data (data : D)

def StrHash.step (h : StrHash V) : Op V D → Option (Ret V D × StrHash V)
  | .set key vl => (h.setStrHash key vl).map fun r => (.int r.1, r.2)
  | .get key => (h.getStrHash key).map fun r => (.ptr r, h)
  | .del key => (h.delStrHash key).map fun r => (.ptr r.1, r.2)
  | .doall dof freef data => (h.doallStrhash dof freef data).map fun r => (.data r.1, r.2)

/-- The key does not begin with a tab. -/
def Op.Keyed : Op V D → Prop
  | .set key _ | .get key | .del key => key.head? ≠ some '\t'.toUInt8
  | .doall _ _ _ => True

instance : ∀ op : Op V D, Decidable op.Keyed
  | .set key _ | .get key | .del key => inferInstanceAs (Decidable (key.head? ≠ some '\t'.toUInt8))
  | .doall _ _ _ => inferInstanceAs (Decidable True)

/-! ### What is asked -/

/-- A finite map from strings to values. -/
abbrev Map (V : Type*) := List UInt8 → Option V

/-- What an operation is to do to a map. -/
def Spec (m : Map V) : Op V D → Ret V D → Map V → Prop
  | .set key vl, r, m' =>
    if (m key).isSome then r = .int (-1) ∧ m' = m
    else r = .int 0 ∧ m' = Function.update m key (some vl)
  | .get key, r, m' => r = .ptr (m key) ∧ m' = m
  | .del key, r, m' => r = .ptr (m key) ∧ m' = Function.update m key none
  | .doall dof freef data, r, m' =>
    -- The pairs in some order, each of them once.
    ∃ pairs : List (Entry V), (pairs.map Entry.key).Nodup ∧ (∀ e, e ∈ pairs ↔ m e.key = some e.vl) ∧
      r = .data (sift (doF dof freef) pairs data).2 ∧
      ∀ e, m' e.key = some e.vl ↔ e ∈ (sift (doF dof freef) pairs data).1

/-- The nodes that are allocated are the pairs of the map. -/
def Stores (h : StrHash V) (m : Map V) : Prop :=
  ∀ key vl, m key = some vl ↔ ∃ a q, h.node a = some ⟨⟨key, vl⟩, q⟩

/-- The table does what a map does. -/
def Agrees : Map V → StrHash V → List (Op V D) → Prop
  | m, h, [] => Stores h m
  | m, h, op :: ops => Stores h m ∧
    ∃ r h' m', h.step op = some (r, h') ∧ Spec m op r m' ∧ Agrees m' h' ops

/-! ### The buckets -/

/-- The chains of the buckets: each has the keys of its number, once, and has its nodes alone. -/
structure Holds (h : StrHash V) (l : ℕ → List (ℕ × Entry V)) : Prop where
  chain : ∀ i < STRHASH_CAP_MAX, IsChain h.node (h.cap i) (l i)
  out : ∀ i, STRHASH_CAP_MAX ≤ i → l i = []
  index : ∀ i, ∀ x ∈ l i, getStrindex x.2.key = i
  keys : ∀ i, ((l i).map fun x => x.2.key).Nodup
  made : ∀ i, ∀ x ∈ l i, x.1 < h.made
  live : ∀ a, h.node a ≠ none → ∃ i, a ∈ addrs (l i)

/-- The chains have the pairs of the map. -/
def Maps (l : ℕ → List (ℕ × Entry V)) (m : Map V) : Prop :=
  ∀ e : Entry V, m e.key = some e.vl ↔ ∃ a, (a, e) ∈ l (getStrindex e.key)

theorem holds_empty : Holds ({} : StrHash V) fun _ => [] where
  chain _ _ := rfl
  out _ _ := rfl
  index i x hx := by cases hx
  keys _ := List.nodup_nil
  made i x hx := by cases hx
  live a ha := absurd rfl ha

theorem maps_empty : Maps (fun _ => []) fun _ => (none : Option V) := by
  intro e
  simp

variable {h : StrHash V} {l : ℕ → List (ℕ × Entry V)} {m : Map V} {i j : ℕ} {x y : ℕ × Entry V}
  {key : List UInt8}

/-- **Only the keys that begin with a tab have no bucket.** -/
theorem getStrindex_lt (hkey : key.head? ≠ some '\t'.toUInt8) : getStrindex key < STRHASH_CAP_MAX := by
  cases key with
  | nil => decide
  | cons c key =>
    unfold getStrindex keylist
    dsimp only
    split_ifs with hc
    · have hlen : keyChars.length = STRHASH_CAP_MAX := by decide
      have hlt : keyChars.idxOf c < keyChars.length := List.idxOf_lt_length_of_mem hc
      -- The tab is the last of the characters.
      have hne : keyChars.idxOf c ≠ 79 := fun he => hkey (by
        have hget : keyChars[keyChars.idxOf c]? = some c := by
          rw [List.getElem?_eq_getElem hlt, List.getElem_idxOf]
        rw [he] at hget
        exact hget.symm.trans (by decide))
      rw [hlen] at hlt
      unfold STRHASH_CAP_MAX at hlt ⊢
      omega
    · decide

/-- What is found in the bucket of a key. -/
theorem Maps.find_eq (hm : Maps l m) (key : List UInt8) :
    ((l (getStrindex key)).map Prod.snd).find? (sameKey key) = (m key).map (Entry.mk key) := by
  cases hget : m key with
  | none =>
    refine List.find?_eq_none.mpr fun e he hsame => ?_
    obtain ⟨x, hx, rfl⟩ := List.mem_map.mp he
    have hkey : x.2.key = key := of_decide_eq_true hsame
    have := (hm x.2).mpr ⟨x.1, by rw [hkey]; exact hx⟩
    rw [hkey, hget] at this
    cases this
  | some vl =>
    obtain ⟨a, ha⟩ := (hm ⟨key, vl⟩).mp hget
    obtain ⟨e, he⟩ := Option.isSome_iff_exists.mp (List.find?_isSome.mpr
      ⟨⟨key, vl⟩, List.mem_map_of_mem ha, decide_eq_true rfl⟩ :
        (((l (getStrindex key)).map Prod.snd).find? (sameKey key)).isSome = true)
    obtain ⟨x, hx, rfl⟩ := List.mem_map.mp (List.mem_of_find?_eq_some he)
    have hsame : sameKey key x.2 = true := List.find?_some he
    have hkey : x.2.key = key := of_decide_eq_true hsame
    have := (hm x.2).mpr ⟨x.1, by rw [hkey]; exact hx⟩
    rw [hkey, hget, Option.some.injEq] at this
    rw [he, Option.map_some, this, ← hkey]

namespace Holds

theorem exists_cell (hh : Holds h l) (hx : x ∈ l i) : ∃ q, h.node x.1 = some ⟨x.2, q⟩ := by
  by_cases hi : i < STRHASH_CAP_MAX
  · exact (hh.chain i hi).exists_cell hx
  · rw [hh.out i (Nat.not_lt.mp hi)] at hx
    cases hx

/-- A node is in one bucket. -/
theorem eq_of_addr (hh : Holds h l) (hx : x ∈ l i) (hy : y ∈ l j) (he : x.1 = y.1) : x = y ∧ i = j := by
  obtain ⟨q, hq⟩ := hh.exists_cell hx
  obtain ⟨q', hq'⟩ := hh.exists_cell hy
  rw [he, hq', Option.some.injEq, Cell.mk.injEq] at hq
  have hxy : x = y := Prod.ext he hq.1.symm
  subst hxy
  exact ⟨rfl, (hh.index i x hx).symm.trans (hh.index j x hy)⟩

theorem not_mem_addrs (hh : Holds h l) (hij : i ≠ j) {a : ℕ} (ha : a ∈ addrs (l i)) : a ∉ addrs (l j) := by
  intro ha'
  obtain ⟨x, hx, rfl⟩ := List.mem_map.mp ha
  obtain ⟨y, hy, he⟩ := List.mem_map.mp ha'
  exact hij (hh.eq_of_addr hx hy he.symm).2

theorem nodup (hh : Holds h l) (i : ℕ) : (addrs (l i)).Nodup :=
  (List.Nodup.of_map _ (hh.keys i)).map_on fun _ hx _ hy he => (hh.eq_of_addr hx hy he).1

theorem length_le (hh : Holds h l) (i : ℕ) : (l i).length ≤ h.made := by
  have := Lib.LinkedQueue.length_le_of_nodup (hh.nodup i) fun a ha => by
    obtain ⟨x, hx, rfl⟩ := List.mem_map.mp ha
    exact hh.made i x hx
  rwa [List.length_map] at this

theorem stores (hh : Holds h l) (hm : Maps l m) : Stores h m := by
  intro key vl
  rw [hm ⟨key, vl⟩]
  constructor
  · rintro ⟨a, ha⟩
    exact ⟨a, hh.exists_cell ha⟩
  · rintro ⟨a, q, ha⟩
    obtain ⟨i, hi⟩ := hh.live a (by rw [ha]; exact Option.some_ne_none _)
    obtain ⟨x, hx, rfl⟩ := List.mem_map.mp hi
    obtain ⟨q', hq'⟩ := hh.exists_cell hx
    rw [ha, Option.some.injEq, Cell.mk.injEq] at hq'
    have hindex := hh.index i x hx
    rw [← hq'.1] at hindex
    refine ⟨x.1, ?_⟩
    rw [hindex, hq'.1]
    exact hx

/-- A bucket loses nodes. -/
theorem replace (hh : Holds h l) (hi : i < STRHASH_CAP_MAX) {m' : Heap (Entry V)} {p' : Option ℕ}
    {l' : List (ℕ × Entry V)} (hchain : IsChain m' p' l') (hfrees : Frees h.node m' (l i) l')
    (hsub : ∀ x ∈ l', x ∈ l i) (hkeys : (l'.map fun x => x.2.key).Nodup) :
    Holds { h with node := m', cap := Function.update h.cap i p' } (Function.update l i l') where
  chain j hj := by
    dsimp only
    by_cases hji : j = i
    · subst hji
      rw [Function.update_self, Function.update_self]
      exact hchain
    · rw [Function.update_of_ne hji, Function.update_of_ne hji]
      exact (hh.chain j hj).congr fun a ha => hfrees.other a (hh.not_mem_addrs hji ha)
  out j hj := by
    have hji : j ≠ i := fun he => Nat.not_lt.mpr hj (he ▸ hi)
    rw [Function.update_of_ne hji]
    exact hh.out j hj
  index j x hx := by
    by_cases hji : j = i
    · subst hji
      rw [Function.update_self] at hx
      exact hh.index j x (hsub x hx)
    · rw [Function.update_of_ne hji] at hx
      exact hh.index j x hx
  keys j := by
    by_cases hji : j = i
    · subst hji
      rw [Function.update_self]
      exact hkeys
    · rw [Function.update_of_ne hji]
      exact hh.keys j
  made j x hx := by
    by_cases hji : j = i
    · subst hji
      rw [Function.update_self] at hx
      exact hh.made j x (hsub x hx)
    · rw [Function.update_of_ne hji] at hx
      exact hh.made j x hx
  live a ha := by
    by_cases hai : a ∈ addrs (l i)
    · refine ⟨i, ?_⟩
      rw [Function.update_self]
      exact not_not.mp fun hn => ha (hfrees.freed a hai hn)
    · obtain ⟨j, hj⟩ := hh.live a (by rw [← hfrees.other a hai]; exact ha)
      have hji : j ≠ i := fun he => hai (he ▸ hj)
      refine ⟨j, ?_⟩
      rw [Function.update_of_ne hji]
      exact hj

end Holds

/-! ### The operations on one key -/

theorem Holds.getStrHash (hh : Holds h l) (hm : Maps l m) (hi : getStrindex key < STRHASH_CAP_MAX) :
    h.getStrHash key = some (m key) := by
  unfold StrHash.getStrHash
  rw [if_pos hi, (hh.chain _ hi).seek _ (hh.length_le _), hm.find_eq, Option.map_some, Option.map_map]
  exact congrArg some Option.map_id'

/-- The nodes of the buckets after a key has been put in front of its own. -/
def pushed (h : StrHash V) (l : ℕ → List (ℕ × Entry V)) (e : Entry V) : ℕ → List (ℕ × Entry V) :=
  Function.update l (getStrindex e.key) ((h.made, e) :: l (getStrindex e.key))

theorem Holds.push (hh : Holds h l) (hm : Maps l m) (hi : getStrindex key < STRHASH_CAP_MAX) (vl : V)
    (hnone : m key = none) :
    Holds
      { count := h.count + 1
        cap := Function.update h.cap (getStrindex key) (some h.made)
        node := Function.update h.node h.made (some ⟨⟨key, vl⟩, h.cap (getStrindex key)⟩)
        made := h.made + 1 } (pushed h l ⟨key, vl⟩) := by
  have hnew : ∀ j, h.made ∉ addrs (l j) := fun j hj => by
    obtain ⟨x, hx, he⟩ := List.mem_map.mp hj
    exact Nat.ne_of_lt (hh.made j x hx) he
  have hmem : ∀ {j : ℕ} {x : ℕ × Entry V}, x ∈ pushed h l ⟨key, vl⟩ j →
      x ∈ l j ∨ (x = (h.made, ⟨key, vl⟩) ∧ getStrindex key = j) := by
    intro j x hx
    unfold pushed at hx
    by_cases hj : j = getStrindex key
    · subst hj
      rw [Function.update_self] at hx
      exact (List.mem_cons.mp hx).symm.imp_right fun he => ⟨he, rfl⟩
    · rw [Function.update_of_ne hj] at hx
      exact .inl hx
  exact {
    chain := fun j hj => by
      unfold pushed
      dsimp only
      by_cases hji : j = getStrindex key
      · subst hji
        rw [Function.update_self, Function.update_self]
        exact (hh.chain _ hj).push (x := (h.made, ⟨key, vl⟩)) (hnew _)
      · rw [Function.update_of_ne hji, Function.update_of_ne hji]
        refine (hh.chain j hj).congr fun a ha => ?_
        have hne : a ≠ h.made := fun he => hnew j (he ▸ ha)
        exact Function.update_of_ne hne ..
    out := fun j hj => by
      have hji : j ≠ getStrindex key := fun he => Nat.not_lt.mpr hj (he ▸ hi)
      unfold pushed
      rw [Function.update_of_ne hji]
      exact hh.out j hj
    index := fun j x hx => by
      obtain hx | ⟨rfl, hj⟩ := hmem hx
      · exact hh.index j x hx
      · exact hj
    keys := fun j => by
      unfold pushed
      by_cases hji : j = getStrindex key
      · subst hji
        rw [Function.update_self, List.map_cons, List.nodup_cons]
        refine ⟨fun hk => ?_, hh.keys _⟩
        obtain ⟨x, hx, he⟩ := List.mem_map.mp hk
        dsimp only at he
        have := (hm x.2).mpr ⟨x.1, by rw [he]; exact hx⟩
        rw [he, hnone] at this
        cases this
      · rw [Function.update_of_ne hji]
        exact hh.keys j
    made := fun j x hx => by
      obtain hx | ⟨rfl, -⟩ := hmem hx
      · exact Nat.lt_succ_of_lt (hh.made j x hx)
      · exact Nat.lt_succ_self _
    live := fun a ha => by
      unfold pushed
      by_cases hnew' : a = h.made
      · refine ⟨getStrindex key, ?_⟩
        rw [Function.update_self, hnew']
        exact List.mem_cons_self
      · dsimp only at ha
        rw [Function.update_of_ne hnew'] at ha
        obtain ⟨j, hj⟩ := hh.live a ha
        refine ⟨j, ?_⟩
        by_cases hji : j = getStrindex key
        · subst hji
          rw [Function.update_self]
          exact List.mem_cons_of_mem _ hj
        · rw [Function.update_of_ne hji]
          exact hj }

theorem Maps.push (hm : Maps l m) (h : StrHash V) (vl : V) (hnone : m key = none) :
    Maps (pushed h l ⟨key, vl⟩) (Function.update m key (some vl)) := by
  intro e
  unfold pushed
  dsimp only
  by_cases hk : e.key = key
  · obtain ⟨k, v⟩ := e
    dsimp only at hk ⊢
    subst hk
    rw [Function.update_self, Function.update_self, Option.some.injEq]
    constructor
    · rintro rfl
      exact ⟨h.made, List.mem_cons_self⟩
    · rintro ⟨a, ha⟩
      obtain he | ha := List.mem_cons.mp ha
      · exact (Entry.mk.inj (Prod.mk.inj he).2).2.symm
      · have := (hm ⟨k, v⟩).mpr ⟨a, ha⟩
        dsimp only at this
        rw [hnone] at this
        cases this
  · rw [Function.update_of_ne hk, hm e]
    refine exists_congr fun a => ?_
    by_cases hi : getStrindex e.key = getStrindex key
    · rw [hi, Function.update_self, List.mem_cons, or_iff_right]
      exact fun he => hk (congrArg Entry.key (Prod.mk.inj he).2)
    · rw [Function.update_of_ne hi]

/-- The nodes of the buckets without a key. -/
def erased (l : ℕ → List (ℕ × Entry V)) (key : List UInt8) : ℕ → List (ℕ × Entry V) :=
  Function.update l (getStrindex key) ((l (getStrindex key)).eraseP fun x => sameKey key x.2)

theorem ne_of_mem_eraseP {b : List (ℕ × Entry V)} (hb : (b.map fun x => x.2.key).Nodup)
    (hx : x ∈ b.eraseP fun x => sameKey key x.2) : x.2.key ≠ key := by
  induction b with
  | nil => cases hx
  | cons y b ih =>
    obtain ⟨hy, hb⟩ := List.nodup_cons.mp hb
    rw [List.eraseP_cons] at hx
    cases hs : sameKey key y.2 with
    | true =>
      rw [hs] at hx
      rw [← of_decide_eq_true hs]
      exact fun he => hy (List.mem_map.mpr ⟨x, hx, he⟩)
    | false =>
      rw [hs, cond_false] at hx
      obtain rfl | hx := List.mem_cons.mp hx
      · exact of_decide_eq_false hs
      · exact ih hb hx

theorem Maps.erase (hm : Maps l m) (hh : Holds h l) (key : List UInt8) :
    Maps (erased l key) (Function.update m key none) := by
  intro e
  unfold erased
  by_cases hk : e.key = key
  · rw [hk, Function.update_self, Function.update_self]
    refine iff_of_false (fun he => by cases he) ?_
    rintro ⟨a, ha⟩
    exact ne_of_mem_eraseP (hh.keys _) ha hk
  · rw [Function.update_of_ne hk, hm e]
    refine exists_congr fun a => ?_
    by_cases hi : getStrindex e.key = getStrindex key
    · rw [hi, Function.update_self, List.mem_eraseP_of_neg]
      exact fun hs => hk (of_decide_eq_true hs)
    · rw [Function.update_of_ne hi]

/-- **A key is deleted.** -/
theorem Holds.delStrHash (hh : Holds h l) (hm : Maps l m) (hi : getStrindex key < STRHASH_CAP_MAX) :
    ∃ h', h.delStrHash key = some (m key, h') ∧ Holds h' (erased l key) ∧ h'.count = h.count := by
  obtain ⟨m', p', hrun, hchain, hfrees⟩ :=
    (hh.chain _ hi).remove (hh.nodup _) (sameKey key) (hh.length_le _)
  unfold StrHash.delStrHash
  rw [if_pos hi, hrun, Option.map_some, hm.find_eq, Option.map_map]
  refine ⟨_, congrArg some (Prod.ext Option.map_id' rfl), hh.replace hi hchain hfrees ?_ ?_, rfl⟩
  · exact fun x hx => List.mem_of_mem_eraseP hx
  · exact (hh.keys _).sublist (List.eraseP_sublist.map _)

/-- **A key that is not there is put in, and one that is there is not.** -/
theorem Holds.setStrHash (hh : Holds h l) (hm : Maps l m) (hi : getStrindex key < STRHASH_CAP_MAX)
    (vl : V) :
    if (m key).isSome then h.setStrHash key vl = some (-1, h)
    else ∃ h', h.setStrHash key vl = some (0, h') ∧ Holds h' (pushed h l ⟨key, vl⟩) ∧
      h'.count = h.count + 1 := by
  unfold StrHash.setStrHash
  rw [hh.getStrHash hm hi, Option.map_some]
  split_ifs with hsome
  · rfl
  · exact ⟨_, rfl, hh.push hm hi vl (Option.not_isSome_iff_eq_none.mp hsome), rfl⟩

/-! ### The sweep -/

/-- The pairs of some buckets, in the order in which `doall_strhash` comes to them. -/
def visited (l : ℕ → List (ℕ × Entry V)) (is : List ℕ) : List (Entry V) :=
  is.flatMap fun i => (headLast (l i)).map Prod.snd

/-- What is left in some buckets. -/
def entries (l : ℕ → List (ℕ × Entry V)) (is : List ℕ) : List (Entry V) :=
  is.flatMap fun i => (l i).map Prod.snd

theorem visited_perm (l : ℕ → List (ℕ × Entry V)) (is : List ℕ) : (visited l is).Perm (entries l is) :=
  List.Perm.flatMap_left is fun i _ => (headLast_perm (l i)).map Prod.snd

/-- **The loop takes out of each bucket what the action wants out**, and leaves the other buckets. -/
theorem Holds.doallLoop {is : List ℕ} (hh : Holds h l) (hnd : is.Nodup)
    (his : ∀ i ∈ is, i < STRHASH_CAP_MAX) (act : Entry V → D → Bool × D) (data : D) :
    ∃ h' l', StrHash.doallLoop act is h data = some ((sift act (visited l is) data).2, h') ∧
      Holds h' l' ∧ (∀ j ∉ is, l' j = l j) ∧
      (entries l' is).Perm (sift act (visited l is) data).1 ∧ h'.count = h.count := by
  induction is generalizing h l data with
  | nil => exact ⟨h, l, rfl, hh, fun _ _ => rfl, List.Perm.refl [], rfl⟩
  | cons i is ih =>
    obtain ⟨hi, hnd⟩ := List.nodup_cons.mp hnd
    have hmax := his i List.mem_cons_self
    obtain ⟨m', p', l₁, hrun, hchain, hperm, hfrees⟩ :=
      (hh.chain i hmax).sweep (hh.nodup i) act data (hh.length_le i)
    have hsub : ∀ x ∈ l₁, x ∈ l i := fun x hx =>
      (headLast_perm (l i)).subset ((sift_sublist _ _ _).subset (hperm.subset hx))
    have hkeys : (l₁.map fun x => x.2.key).Nodup := by
      refine (hperm.map _).nodup_iff.mpr (((sift_sublist _ _ _).map _).nodup ?_)
      exact ((headLast_perm (l i)).map _).nodup_iff.mpr (hh.keys i)
    obtain ⟨h', l', hloop, hh', hother, hrest, hcount⟩ :=
      ih (hh.replace hmax hchain hfrees hsub hkeys) hnd (fun j hj => his j (List.mem_cons_of_mem _ hj))
        (sift (fun x => act x.2) (headLast (l i)) data).2
    have hvisited : visited (Function.update l i l₁) is = visited l is :=
      List.flatMap_congr fun j hj => by
        have hji : j ≠ i := fun he => hi (he ▸ hj)
        rw [Function.update_of_ne hji]
    rw [hvisited] at hloop hrest
    have hfirst : visited l (i :: is) = (headLast (l i)).map Prod.snd ++ visited l is := List.flatMap_cons
    refine ⟨h', l', ?_, hh', fun j hj => ?_, ?_, hcount⟩
    · rw [StrHash.doallLoop, hrun, Option.bind_some, hfirst, sift_append, sift_map]
      exact hloop
    · rw [List.mem_cons, not_or] at hj
      rw [hother j hj.2, Function.update_of_ne hj.1]
    · have hhead : l' i = l₁ := by rw [hother i hi, Function.update_self]
      rw [hfirst, sift_append, sift_map]
      unfold entries at hrest ⊢
      rw [List.flatMap_cons, hhead]
      exact (hperm.map Prod.snd).append hrest

/-- All pairs of the table. -/
def allEntries (l : ℕ → List (ℕ × Entry V)) : List (Entry V) := entries l (List.range STRHASH_CAP_MAX)

theorem Holds.mem_allEntries (hh : Holds h l) (e : Entry V) :
    e ∈ allEntries l ↔ ∃ a, (a, e) ∈ l (getStrindex e.key) := by
  unfold allEntries entries
  rw [List.mem_flatMap]
  constructor
  · rintro ⟨i, -, he⟩
    obtain ⟨x, hx, rfl⟩ := List.mem_map.mp he
    exact ⟨x.1, by rw [hh.index i x hx]; exact hx⟩
  · rintro ⟨a, ha⟩
    refine ⟨getStrindex e.key, List.mem_range.mpr ?_, List.mem_map.mpr ⟨(a, e), ha, rfl⟩⟩
    by_contra hi
    rw [hh.out _ (Nat.not_lt.mp hi)] at ha
    cases ha

theorem Holds.nodup_keys (hh : Holds h l) : ((allEntries l).map Entry.key).Nodup := by
  unfold allEntries entries
  rw [List.map_flatMap]
  refine List.nodup_flatMap.mpr ⟨fun i _ => ?_, ?_⟩
  · rw [List.map_map]
    exact hh.keys i
  · refine List.nodup_range.imp fun {i j} hij k hi hj => hij ?_
    obtain ⟨e, he, rfl⟩ := List.mem_map.mp hi
    obtain ⟨x, hx, rfl⟩ := List.mem_map.mp he
    obtain ⟨e', he', hk⟩ := List.mem_map.mp hj
    obtain ⟨y, hy, rfl⟩ := List.mem_map.mp he'
    rw [← hh.index i x hx, ← hh.index j y hy, hk]

/-- **`doall_strhash` goes to each pair once and takes out those for which its test is not zero.** -/
theorem Holds.doallStrhash (hh : Holds h l) (hm : Maps l m) (dof : V → D → ℤ × D) (freef : V → D → D)
    (data : D) :
    ∃ h' l' m', h.doallStrhash dof freef data =
        some ((sift (doF dof freef) (visited l (List.range STRHASH_CAP_MAX)) data).2, h') ∧
      Holds h' l' ∧ Maps l' m' ∧
      (allEntries l').Perm (sift (doF dof freef) (visited l (List.range STRHASH_CAP_MAX)) data).1 ∧
      h'.count = h.count ∧
      Spec m (.doall dof freef data)
        (.data (sift (doF dof freef) (visited l (List.range STRHASH_CAP_MAX)) data).2) m' := by
  obtain ⟨h', l', hrun, hh', -, hperm, hcount⟩ := hh.doallLoop List.nodup_range
    (fun i hi => List.mem_range.mp hi) (doF dof freef) data
  have hv := visited_perm l (List.range STRHASH_CAP_MAX)
  have hmaps : Maps l' fun key => ((l' (getStrindex key)).map Prod.snd).find? (sameKey key)
      |>.map Entry.vl := by
    intro e
    dsimp only
    rw [Option.map_eq_some_iff]
    constructor
    · rintro ⟨e', he', hvl⟩
      obtain ⟨x, hx, rfl⟩ := List.mem_map.mp (List.mem_of_find?_eq_some he')
      have hsame : sameKey e.key x.2 = true := List.find?_some he'
      have hxe : x.2 = e := by
        obtain ⟨k, v⟩ := e
        obtain ⟨a, k', v'⟩ := x
        dsimp only at hvl
        rw [hvl, show k' = k from of_decide_eq_true hsame]
      exact ⟨x.1, by rw [← hxe] at hx ⊢; exact hx⟩
    · rintro ⟨a, ha⟩
      obtain ⟨e', he'⟩ := Option.isSome_iff_exists.mp (List.find?_isSome.mpr
        ⟨e, List.mem_map_of_mem ha, decide_eq_true rfl⟩ :
          (((l' (getStrindex e.key)).map Prod.snd).find? (sameKey e.key)).isSome = true)
      obtain ⟨x, hx, rfl⟩ := List.mem_map.mp (List.mem_of_find?_eq_some he')
      have hsame : sameKey e.key x.2 = true := List.find?_some he'
      have hkey : x.2.key = e.key := of_decide_eq_true hsame
      have hinj := List.inj_on_of_nodup_map (hh'.keys _) hx ha hkey
      exact ⟨x.2, he', by rw [hinj]⟩
  refine ⟨h', l', _, hrun, hh', hmaps, hperm, hcount, visited l (List.range STRHASH_CAP_MAX), ?_, ?_,
    rfl, fun e => ?_⟩
  · exact (hv.map Entry.key).nodup_iff.mpr hh.nodup_keys
  · intro e
    rw [hv.mem_iff, hm e]
    exact hh.mem_allEntries e
  · rw [hmaps e, ← hh'.mem_allEntries e]
    exact hperm.mem_iff

/-! ### The runs -/

/-- **An operation does what it is to do to the map.** -/
theorem Holds.step (hh : Holds h l) (hm : Maps l m) {op : Op V D} (hop : op.Keyed) :
    ∃ r h' l' m', h.step op = some (r, h') ∧ Spec m op r m' ∧ Holds h' l' ∧ Maps l' m' := by
  cases op with
  | set key vl =>
    have hset := hh.setStrHash hm (getStrindex_lt hop) vl
    unfold Spec
    dsimp only
    split_ifs at hset ⊢ with hsome
    · exact ⟨.int (-1), h, l, m, congrArg (Option.map _) hset, ⟨rfl, rfl⟩, hh, hm⟩
    · obtain ⟨h', hrun, hh', -⟩ := hset
      exact ⟨.int 0, h', _, _, congrArg (Option.map _) hrun, ⟨rfl, rfl⟩, hh',
        hm.push h vl (Option.not_isSome_iff_eq_none.mp hsome)⟩
  | get key =>
    have hget := hh.getStrHash hm (getStrindex_lt hop)
    exact ⟨.ptr (m key), h, l, m, congrArg (Option.map _) hget, ⟨rfl, rfl⟩, hh, hm⟩
  | del key =>
    obtain ⟨h', hrun, hh', -⟩ := hh.delStrHash hm (getStrindex_lt hop)
    exact ⟨.ptr (m key), h', _, _, congrArg (Option.map _) hrun, ⟨rfl, rfl⟩, hh', hm.erase hh key⟩
  | doall dof freef data =>
    obtain ⟨h', l', m', hrun, hh', hm', -, -, hspec⟩ := hh.doallStrhash hm dof freef data
    exact ⟨_, h', l', m', congrArg (Option.map _) hrun, hspec, hh', hm'⟩

theorem Holds.agrees {ops : List (Op V D)} (hh : Holds h l) (hm : Maps l m)
    (hops : ∀ op ∈ ops, op.Keyed) : Agrees m h ops := by
  induction ops generalizing h l m with
  | nil => exact hh.stores hm
  | cons op ops ih =>
    obtain ⟨r, h', l', m', hrun, hspec, hh', hm'⟩ := hh.step hm (hops op List.mem_cons_self)
    exact ⟨hh.stores hm, r, h', m', hrun, hspec, ih hh' hm' fun o ho => hops o (List.mem_cons_of_mem _ ho)⟩

/-- **The hash is a finite map**, for all sequences of operations. -/
theorem refines_map {ops : List (Op V D)} (hops : ∀ op ∈ ops, op.Keyed) :
    Agrees (fun _ => none) {} ops :=
  holds_empty.agrees maps_empty hops

/-- Two keys of one bucket. -/
theorem refines_map_two : Agrees (fun _ => none) ({} : StrHash ℕ)
    [.set [97] 1, .set [97, 98] 2, .del [97],
      .doall (fun _ n => (0, n + 1)) (fun _ n => n) (0 : ℕ)] :=
  refines_map (by decide)

end ChatShow.Antlib.Hash
