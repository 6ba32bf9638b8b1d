import ChatShow.Antlib.Hash
import ChatShow.Lib.Runs

/-! # The count of the hash

`set_str_hash` counts the keys that it puts in, and neither `del_str_hash` nor `doall_strhash` takes
those that they take out from the count. -/

namespace ChatShow.Antlib.HashCount

open ChatShow.Lib.Chains ChatShow.Lib.Runs ChatShow.Antlib.Hash

variable {V D : Type*}

/-! ### What is asked -/

/-- An operation on a key that has a bucket. -/
abbrev KeyedOp (V D : Type*) := {op : Op V D // op.Keyed}

def next (h : StrHash V) (op : KeyedOp V D) : Option (StrHash V) := (h.step op.1).map Prod.snd

/-- The pairs of a bucket. -/
def bucket (h : StrHash V) (i : ℕ) : List (Entry V) := (walk h.node h.made (h.cap i)).getD []

/-- The keys that are stored in all buckets. -/
def stored (h : StrHash V) : ℕ := ((List.range STRHASH_CAP_MAX).flatMap (bucket h)).length

def Exact (h : StrHash V) : Prop := h.count.toInt = stored h

/-- What an operation has to meet: no pair is taken out, and an `int` has the number of the keys. -/
def Ok (h : StrHash V) (op : KeyedOp V D) : Prop :=
  match op.1 with
  | .set key _ => h.getStrHash key = some none → stored h + 1 < 2147483648
  | .get _ => True
  | .del key => h.getStrHash key = some none
  | .doall dof freef data => Spares (doF dof freef)
      ((List.range STRHASH_CAP_MAX).flatMap fun i => headLast (bucket h i)) data

/-! ### The keys that are stored -/

variable {h : StrHash V} {l : ℕ → List (ℕ × Entry V)} {m : Map V} {key : List UInt8}

theorem bucket_eq (hh : Holds h l) {i : ℕ} (hi : i < STRHASH_CAP_MAX) :
    bucket h i = (l i).map Prod.snd := by
  unfold bucket
  rw [(hh.chain i hi).walk (hh.length_le i), Option.getD_some]

theorem stored_eq (hh : Holds h l) : stored h = (allEntries l).length := by
  unfold stored allEntries entries
  refine congrArg List.length (List.flatMap_congr fun i hi => ?_)
  exact bucket_eq hh (List.mem_range.mp hi)

theorem headLast_map {α β : Type*} (f : α → β) (b : List α) : headLast (b.map f) = (headLast b).map f := by
  cases b with
  | nil => rfl
  | cons x b =>
    show b.map f ++ [f x] = (b ++ [x]).map f
    rw [List.map_append]
    rfl

theorem visited_eq (hh : Holds h l) : visited l (List.range STRHASH_CAP_MAX) =
    (List.range STRHASH_CAP_MAX).flatMap fun i => headLast (bucket h i) := by
  refine List.flatMap_congr fun i hi => ?_
  rw [bucket_eq hh (List.mem_range.mp hi), headLast_map]

theorem length_entries_update {is : List ℕ} (hnd : is.Nodup) {i : ℕ} (hi : i ∈ is)
    (b : List (ℕ × Entry V)) :
    (entries (Function.update l i b) is).length + (l i).length = (entries l is).length + b.length := by
  induction is with
  | nil => cases hi
  | cons j is ih =>
    obtain ⟨hj, hnd⟩ := List.nodup_cons.mp hnd
    unfold entries at ih ⊢
    rw [List.flatMap_cons, List.flatMap_cons, List.length_append, List.length_append, List.length_map,
      List.length_map]
    by_cases hij : i = j
    · subst hij
      have hrest : is.flatMap (fun k => (Function.update l i b k).map Prod.snd) =
          is.flatMap fun k => (l k).map Prod.snd :=
        List.flatMap_congr fun k hk => by
          have hki : k ≠ i := fun he => hj (he ▸ hk)
          rw [Function.update_of_ne hki]
      rw [Function.update_self, hrest]
      omega
    · have hne : j ≠ i := fun he => hij he.symm
      rw [Function.update_of_ne hne]
      have hind := ih hnd ((List.mem_cons.mp hi).resolve_left hij)
      omega

theorem length_update (hi : getStrindex key < STRHASH_CAP_MAX) (b : List (ℕ × Entry V)) :
    (allEntries (Function.update l (getStrindex key) b)).length + (l (getStrindex key)).length =
      (allEntries l).length + b.length :=
  length_entries_update List.nodup_range (List.mem_range.mpr hi) b

theorem length_pushed (hi : getStrindex key < STRHASH_CAP_MAX) (vl : V) :
    (allEntries (pushed h l ⟨key, vl⟩)).length = (allEntries l).length + 1 := by
  have hlen := length_update (l := l) hi ((h.made, ⟨key, vl⟩) :: l (getStrindex key))
  rw [List.length_cons] at hlen
  exact Nat.add_right_cancel (hlen.trans (by omega) :
    _ + (l (getStrindex key)).length = (allEntries l).length + 1 + (l (getStrindex key)).length)

theorem length_erased (hm : Maps l m) (hi : getStrindex key < STRHASH_CAP_MAX) :
    (allEntries (erased l key)).length + (if (m key).isSome then 1 else 0) = (allEntries l).length := by
  have hlen := length_update (l := l) hi ((l (getStrindex key)).eraseP fun x => sameKey key x.2)
  have hany : (l (getStrindex key)).any (fun x => sameKey key x.2) = (m key).isSome := by
    have hfind := congrArg Option.isSome (hm.find_eq key)
    rw [List.find?_map, Option.isSome_map, Option.isSome_map, List.isSome_find?] at hfind
    exact hfind
  rw [List.length_eraseP, hany] at hlen
  unfold erased
  split_ifs at hlen ⊢ with hsome
  · have hpos : 0 < (l (getStrindex key)).length := by
      rw [hsome, List.any_eq_true] at hany
      obtain ⟨x, hx, -⟩ := hany
      exact List.length_pos_of_mem hx
    omega
  · omega

/-! ### The steps -/

theorem toInt_add_one {c : Int32} {n : ℕ} (hc : c.toInt = n) :
    (c + 1).toInt = (n + 1 : ℕ) ↔ n + 1 < 2147483648 := by
  have hlt := c.toInt_lt
  have hlt' := (c + 1).toInt_lt
  rw [Int32.toInt_add, hc, show (1 : Int32).toInt = 1 by decide] at hlt' ⊢
  constructor
  · intro he
    omega
  · intro hn
    rw [Int.bmod_eq_of_le (by omega) (by omega)]
    rfl

/-- **The count stays exact where an operation takes out nothing.** -/
theorem exact_step (hh : Holds h l) (hm : Maps l m) (hexact : Exact h) (op : KeyedOp V D) :
    ∃ h', next h op = some h' ∧ (∃ l' m', Holds h' l' ∧ Maps l' m') ∧ (Ok h op ↔ Exact h') := by
  obtain ⟨op, hop⟩ := op
  unfold Exact at hexact
  rw [stored_eq hh] at hexact
  cases op with
  | set key vl =>
    have hi := getStrindex_lt hop
    have hset := hh.setStrHash hm hi vl
    have hok : Ok h ⟨.set key vl, hop⟩ ↔ (m key = none → (allEntries l).length + 1 < 2147483648) := by
      unfold Ok
      dsimp only
      rw [hh.getStrHash hm hi, Option.some.injEq, stored_eq hh]
    rw [hok]
    split_ifs at hset with hsome
    · refine ⟨h, congrArg (Option.map Prod.snd) (congrArg (Option.map _) hset), ⟨l, m, hh, hm⟩, ?_⟩
      unfold Exact
      rw [stored_eq hh]
      refine iff_of_true (fun hnone => ?_) hexact
      rw [hnone] at hsome
      cases hsome
    · have hnone := Option.not_isSome_iff_eq_none.mp hsome
      obtain ⟨h', hrun, hh', hcount⟩ := hset
      refine ⟨h', congrArg (Option.map Prod.snd) (congrArg (Option.map _) hrun),
        ⟨_, _, hh', hm.push h vl hnone⟩, ?_⟩
      unfold Exact
      rw [stored_eq hh', length_pushed hi, hcount, toInt_add_one hexact]
      exact ⟨fun himp => himp hnone, fun hlt _ => hlt⟩
  | get key =>
    have hget := hh.getStrHash hm (getStrindex_lt hop)
    refine ⟨h, congrArg (Option.map Prod.snd) (congrArg (Option.map _) hget), ⟨l, m, hh, hm⟩, ?_⟩
    unfold Exact
    rw [stored_eq hh]
    exact iff_of_true trivial hexact
  | del key =>
    have hi := getStrindex_lt hop
    obtain ⟨h', hrun, hh', hcount⟩ := hh.delStrHash hm hi
    refine ⟨h', congrArg (Option.map Prod.snd) (congrArg (Option.map _) hrun),
      ⟨_, _, hh', hm.erase hh key⟩, ?_⟩
    have hok : Ok h ⟨.del key, hop⟩ ↔ m key = none := by
      unfold Ok
      dsimp only
      rw [hh.getStrHash hm hi, Option.some.injEq]
    have hlen := length_erased hm hi
    unfold Exact
    rw [hok, stored_eq hh', hcount, hexact]
    cases hget : m key with
    | none =>
      rw [hget] at hlen
      exact iff_of_true rfl (congrArg Nat.cast hlen.symm)
    | some vl =>
      rw [hget, Option.isSome_some, if_pos rfl] at hlen
      refine iff_of_false (Option.some_ne_none vl) fun he => ?_
      omega
  | doall dof freef data =>
    obtain ⟨h', l', m', hrun, hh', hm', hperm, hcount, -⟩ := hh.doallStrhash hm dof freef data
    refine ⟨h', congrArg (Option.map Prod.snd) (congrArg (Option.map _) hrun), ⟨l', m', hh', hm'⟩, ?_⟩
    have hok : Ok h ⟨.doall dof freef data, hop⟩ ↔
        Spares (doF dof freef) (visited l (List.range STRHASH_CAP_MAX)) data := by
      unfold Ok
      dsimp only
      rw [visited_eq hh]
    have hall : (visited l (List.range STRHASH_CAP_MAX)).length = (allEntries l).length :=
      (visited_perm l _).length_eq
    unfold Exact
    rw [hok, ← length_sift, hall, stored_eq hh', hcount, hexact, hperm.length_eq, Int.natCast_inj]
    exact eq_comm

/-! ### The runs -/

/-- **Where the count is exact in all of a run**: where no pair is ever taken out. -/
theorem exact_iff (ops : List (KeyedOp V D)) :
    (∀ ops' h', ops' <+: ops → run next ({} : StrHash V) ops' = some h' → Exact h') ↔
      Along next Ok ({} : StrHash V) ops := by
  refine along_iff (I := fun h => ∃ l m, Holds h l ∧ Maps l m) ?_ ops ⟨_, _, holds_empty, maps_empty⟩ rfl
  rintro h op ⟨l, m, hh, hm⟩ hexact
  exact exact_step hh hm hexact op

/-- A key is put in and deleted. -/
theorem not_exact : ∃ h, run next ({} : StrHash ℕ)
      [⟨.set [97] 1, by decide⟩, ⟨(.del [97] : Op ℕ Unit), by decide⟩] = some h ∧
    h.count = 1 ∧ stored h = 0 ∧ ¬ Exact h := by
  refine ⟨_, rfl, rfl, by decide, ?_⟩
  unfold Exact
  decide

end ChatShow.Antlib.HashCount
