import ChatShow.Antlib.StringBodies
import Mathlib.Algebra.Group.Prod
import Mathlib.Data.List.Infix
import Mathlib.Algebra.BigOperators.Group.List.Basic
import Mathlib.Algebra.Order.BigOperators.Group.List
import Mathlib.Tactic.Linarith

/-! # The sizes of string messages

The sizes that `tcpmsg_regist_string` adds up for a table, and the sizes of the bodies that its
fields fill. A body with each field once, and a value in the range of each, is not too short or too
long (`render_admitted`). The sums are `int`s: unless one overflows, the registration ends with a
table (`regist_eq`). -/

namespace ChatShow.Antlib.StringSizes

open ChatShow.Antlib.TcpMsglist ChatShow.Antlib.TcpStringmsg
open ChatShow.Antlib.StringBodies

/-- What a string table is registered with: the ids and keys that are taken, and its own. -/
structure Registration where
  taken : ℤ → Bool
  tables : List UInt8 → List UInt8 → Option StringTable
  key1 : Option (List UInt8)
  key2 : Option (List UInt8)
  id : ℤ
  fields : List TcpmsgField

namespace Registration

variable (g : Registration)

def regist : Option (Option (StringTable × ℤ × ℤ)) :=
  tcpmsgRegistString g.taken g.tables g.key1 g.key2 g.id g.fields

/-- The table that is registered. -/
def table : StringTable := ⟨g.id, g.fields⟩

end Registration

/-- Two sizes that are `int`s. -/
def IntSizes (m : ℤ × ℤ) : Prop := -2 ^ 31 ≤ m.1 ∧ m.1 < 2 ^ 31 ∧ -2 ^ 31 ≤ m.2 ∧ m.2 < 2 ^ 31

instance (m : ℤ × ℤ) : Decidable (IntSizes m) := inferInstanceAs (Decidable (_ ∧ _))

/-- What is added up for the fields: their limits, their names with a `=` each, and the `&`. -/
def additions (fields : List TcpmsgField) : List (ℤ × ℤ) :=
  fields.map (fun f => (f.min, f.max)) ++
    (fields.map (fun f => ((f.name.length : ℤ) + 1, (f.name.length : ℤ) + 1)) ++
      if 1 < fields.length then [((fields.length : ℤ) - 1, (fields.length : ℤ) - 1)] else [])

/-- No sum on the way overflows. -/
def SizesFit (fields : List TcpmsgField) : Prop := ∀ p ∈ (additions fields).inits, IntSizes p.sum

instance (fields : List TcpmsgField) : Decidable (SizesFit fields) := List.decidableBAll _ _

/-- The length of a value is in the range of its field. -/
def inRange (f : TcpmsgField) (v : List UInt8) : Bool := f.min ≤ v.length ∧ v.length ≤ f.max

/-- A body has the field, with a value whose length is in its range. -/
def right (ps : List (List UInt8 × List UInt8)) (f : TcpmsgField) : Bool :=
  (ps.lookup f.name).any (inRange f)

/-- A body has each field, with a value whose length is in its range. -/
def Complete (fields : List TcpmsgField) (ps : List (List UInt8 × List UInt8)) : Prop :=
  ∀ f ∈ fields, right ps f

instance (fields : List TcpmsgField) (ps : List (List UInt8 × List UInt8)) :
    Decidable (Complete fields ps) := List.decidableBAll _ _

/-- The size test of `tcpmsg_getbykey` lets `n` bytes pass. -/
def Admits (t : StringTable) (n : ℕ) : Prop := t.table.minSize ≤ n ∧ n ≤ t.table.maxSize

instance (t : StringTable) (n : ℕ) : Decidable (Admits t n) := inferInstanceAs (Decidable (_ ∧ _))

variable {fields : List TcpmsgField} {ps : List (List UInt8 × List UInt8)} {g : Registration}
variable {m m' s : ℤ × ℤ} {l : List (ℤ × ℤ)} {k v : List UInt8} {f : TcpmsgField}

/-! ### Registration -/

theorem addSizes_of_fits (h : IntSizes (m + s)) : addSizes m s = some (m + s) := if_pos h

theorem addSizes_of_not_fits (h : ¬ IntSizes (m + s)) : addSizes m s = none := if_neg h

/-- **Sums that do not overflow on the way.** -/
theorem foldlM_addSizes (hm : IntSizes m) : l.foldlM addSizes m = some m' ↔
    m + l.sum = m' ∧ ∀ p, p <+: l → IntSizes (m + p.sum) := by
  induction l generalizing m with
  | nil =>
    rw [List.foldlM_nil, List.sum_nil, add_zero]
    refine ⟨fun h => ⟨Option.some.inj h, fun p hp => ?_⟩, fun h => congrArg some h.1⟩
    rwa [List.prefix_nil.mp hp, List.sum_nil, add_zero]
  | cons s l ih =>
    rw [List.foldlM_cons, List.sum_cons, ← add_assoc]
    by_cases hs : IntSizes (m + s)
    · rw [addSizes_of_fits hs]
      refine (ih hs).trans (and_congr_right fun _ => ⟨fun h p hp => ?_, fun h p hp => ?_⟩)
      · obtain rfl | ⟨q, rfl, hq⟩ := List.prefix_cons_iff.mp hp
        · rwa [List.sum_nil, add_zero]
        · rw [List.sum_cons, ← add_assoc]
          exact h q hq
      · rw [add_assoc, ← List.sum_cons]
        exact h (s :: p) (List.cons_prefix_cons.mpr ⟨rfl, hp⟩)
    · rw [addSizes_of_not_fits hs]
      refine ⟨fun h => (nomatch h), fun h => absurd ?_ hs⟩
      have hfit := h.2 [s] (List.cons_prefix_cons.mpr ⟨rfl, List.nil_prefix⟩)
      rwa [List.sum_singleton] at hfit

theorem sum_pairs {α : Type*} (a b : α → ℤ) (l : List α) :
    (l.map fun x => (a x, b x)).sum = ((l.map a).sum, (l.map b).sum) := by
  induction l with
  | nil => rfl
  | cons x l ih =>
    rw [List.map_cons, List.sum_cons, ih, List.map_cons, List.sum_cons, List.map_cons, List.sum_cons,
      Prod.mk_add_mk]

/-- The sums are the sizes of the table. -/
theorem sum_additions (g : Registration) :
    (additions g.fields).sum = (g.table.table.minSize, g.table.table.maxSize) := by
  have hamp : (if 1 < g.fields.length then
      [((g.fields.length : ℤ) - 1, (g.fields.length : ℤ) - 1)] else []).sum =
      (if 1 < g.fields.length then (g.fields.length : ℤ) - 1 else 0,
        if 1 < g.fields.length then (g.fields.length : ℤ) - 1 else 0) := by
    split_ifs
    · exact List.sum_singleton
    · rfl
  unfold additions
  rw [List.sum_append, List.sum_append, sum_pairs, sum_pairs, hamp, Prod.mk_add_mk, Prod.mk_add_mk]
  rfl

/-- What `tcpmsg_regist_string` adds to the limits. -/
theorem foldlM_names (fields : List TcpmsgField) (t : StringTable) (m : ℤ × ℤ) :
    (do
      let m ← fields.foldlM (fun m f => addSizes m (f.name.length + 1, f.name.length + 1)) m
      let m ← if 1 < fields.length then
          addSizes m ((fields.length : ℤ) - 1, (fields.length : ℤ) - 1)
        else some m
      return some (t, m)) =
      ((fields.map (fun f => ((f.name.length : ℤ) + 1, (f.name.length : ℤ) + 1)) ++
        if 1 < fields.length then [((fields.length : ℤ) - 1, (fields.length : ℤ) - 1)]
        else []).foldlM addSizes m).map fun m => some (t, m) := by
  rw [List.foldlM_append, List.foldlM_map]
  cases fields.foldlM (fun m f => addSizes m (f.name.length + 1, f.name.length + 1)) m with
  | none => rfl
  | some m =>
    by_cases hn : 1 < fields.length
    · simp only [if_pos hn, List.foldlM_cons, List.foldlM_nil, Option.bind_eq_bind, Option.bind_some]
      cases addSizes m ((fields.length : ℤ) - 1, (fields.length : ℤ) - 1) with
      | none => rfl
      | some m => rfl
    · simp only [if_neg hn]
      rfl

/-- **A registration that is not refused** ends with the table, unless a sum overflows. -/
theorem regist_eq (hreg : g.regist ≠ some none) (hnames : ∀ f ∈ g.fields, f.name.length ≤ 31) :
    g.regist = ((additions g.fields).foldlM addSizes (0, 0)).map fun m => some (g.table, m) := by
  have hcopy : (g.fields.map fun f => { f with name := f.name.take 31 }) = g.fields := by
    refine (List.map_congr_left fun f hf => ?_).trans (List.map_id _)
    rw [List.take_of_length_le (hnames f hf)]
    rfl
  unfold Registration.regist tcpmsgRegistString at hreg ⊢
  by_cases hkeys : g.key1.getD [] = [] ∨ g.key2.getD [] = []
  · rw [if_pos hkeys] at hreg
    exact absurd rfl hreg
  rw [if_neg hkeys] at hreg ⊢
  unfold tcpmsgRegist at hreg ⊢
  by_cases hid : g.id ≤ 0 ∨ 65536 ≤ g.id ∨ g.taken g.id ∨ 1024 < g.fields.length
  · rw [if_pos hid] at hreg
    exact absurd rfl hreg
  rw [if_neg hid, hcopy] at hreg ⊢
  unfold additions
  rw [List.foldlM_append, List.foldlM_map]
  cases hm : g.fields.foldlM (fun m f => addSizes m (f.min, f.max)) (0, 0) with
  | none => rfl
  | some m =>
    rw [hm] at hreg
    dsimp only [Option.map_some] at hreg ⊢
    by_cases htable : (g.tables (g.key1.getD []) (g.key2.getD [])).isSome
    · exact absurd (if_pos htable) hreg
    · rw [if_neg htable]
      exact foldlM_names g.fields g.table m

/-- **The table is registered, unless a sum of sizes overflows.** -/
theorem regist_cases (hreg : g.regist ≠ some none) (hnames : ∀ f ∈ g.fields, f.name.length ≤ 31) :
    (¬ SizesFit g.fields ∧ g.regist = none) ∨
      (SizesFit g.fields ∧
        g.regist = some (some (g.table, g.table.table.minSize, g.table.table.maxSize))) := by
  have hzero : IntSizes (0, 0) := by decide
  have hsums (m : ℤ × ℤ) : (0, 0) + m = m := zero_add m
  have hfits : SizesFit g.fields ↔
      ∀ p, p <+: additions g.fields → IntSizes ((0, 0) + p.sum) := by
    unfold SizesFit
    exact forall_congr' fun p => by rw [List.mem_inits, hsums]
  rw [regist_eq hreg hnames, hfits]
  cases hm : (additions g.fields).foldlM addSizes (0, 0) with
  | none =>
    refine Or.inl ⟨fun h => ?_, rfl⟩
    have := (foldlM_addSizes hzero).mpr ⟨rfl, h⟩
    rw [hm] at this
    cases this
  | some m =>
    obtain ⟨rfl, h⟩ := (foldlM_addSizes hzero).mp hm
    refine Or.inr ⟨h, ?_⟩
    rw [hsums, sum_additions]
    rfl

/-! ### The size of a body -/

theorem separators (p : List UInt8 × List UInt8) (ps : List (List UInt8 × List UInt8)) :
    (if (p :: ps).length > 1 then ((p :: ps).length : ℤ) - 1 else 0) = ps.length := by
  rw [List.length_cons]
  split_ifs with h
  · push_cast
    ring
  · omega

theorem length_render (ps : List (List UInt8 × List UInt8)) : ((render ps).length : ℤ) =
    (ps.map fun p => (p.1.length : ℤ) + 1 + p.2.length).sum +
      if ps.length > 1 then (ps.length : ℤ) - 1 else 0 := by
  induction ps with
  | nil => rfl
  | cons p ps ih =>
    obtain ⟨k, v⟩ := p
    rw [separators, List.map_cons, List.sum_cons]
    cases ps with
    | nil =>
      rw [render, List.length_append, List.length_cons, List.map_nil, List.sum_nil, List.length_nil]
      push_cast
      ring
    | cons q qs =>
      rw [separators] at ih
      rw [render, List.length_append, List.length_cons, List.length_append, List.length_cons]
      push_cast
      rw [ih, List.length_cons]
      push_cast
      ring

theorem lookup_of_mem (hkeys : (ps.map Prod.fst).Nodup) {p : List UInt8 × List UInt8} (hp : p ∈ ps) :
    ps.lookup p.1 = some p.2 := by
  induction ps with
  | nil => cases hp
  | cons q ps ih =>
    obtain ⟨hnot, hkeys⟩ := List.nodup_cons.mp hkeys
    obtain rfl | hp := List.mem_cons.mp hp
    · exact List.lookup_cons_self
    · have hne : p.1 ≠ q.1 := fun he => hnot (he ▸ List.mem_map_of_mem hp)
      exact (lookup_cons_of_ne hne).trans (ih hkeys hp)

theorem right_iff_lookup : right ps f ↔ ∃ v, ps.lookup f.name = some v ∧ inRange f v := by
  unfold right
  cases ps.lookup f.name with
  | none => exact ⟨fun h => (nomatch h), fun ⟨v, hv, _⟩ => (nomatch hv)⟩
  | some v => exact ⟨fun h => ⟨v, rfl, h⟩, fun ⟨w, hw, h⟩ => Option.some.inj hw ▸ h⟩

/-- **A body with each field once, and a value in the range of each, passes the size test.** -/
theorem render_admitted (hnames : (g.fields.map TcpmsgField.name).Nodup)
    (hkeys : (ps.map Prod.fst).Nodup) (hknown : ∀ p ∈ ps, p.1 ∈ g.fields.map TcpmsgField.name)
    (hall : Complete g.fields ps) : Admits g.table (render ps).length := by
  let w : List UInt8 → ℤ := fun k => ((ps.lookup k).getD []).length
  have hperm : (ps.map Prod.fst).Perm (g.fields.map TcpmsgField.name) := by
    refine (List.perm_ext_iff_of_nodup hkeys hnames).mpr fun k => ⟨fun hk => ?_, fun hk => ?_⟩
    · obtain ⟨p, hp, rfl⟩ := List.mem_map.mp hk
      exact hknown p hp
    · obtain ⟨f, hf, rfl⟩ := List.mem_map.mp hk
      obtain ⟨v, hv, -⟩ := right_iff_lookup.mp (hall f hf)
      by_contra hnot
      rw [List.lookup_eq_none_iff.mpr fun p hp => ?_] at hv
      · cases hv
      · exact bne_iff_ne.mpr fun he => hnot (he ▸ List.mem_map_of_mem hp)
  have hlength : ps.length = g.fields.length := by
    rw [← List.length_map Prod.fst, hperm.length_eq, List.length_map]
  have hpairs : (ps.map fun p => (p.1.length : ℤ) + 1 + p.2.length).sum =
      (g.fields.map fun f => (f.name.length : ℤ) + 1).sum +
        (g.fields.map fun f => w f.name).sum := by
    calc (ps.map fun p => (p.1.length : ℤ) + 1 + p.2.length).sum
        = ((ps.map Prod.fst).map fun k => (k.length : ℤ) + 1 + w k).sum := by
          rw [List.map_map]
          refine congrArg List.sum (List.map_congr_left fun p hp => ?_)
          change _ = (p.1.length : ℤ) + 1 + ((ps.lookup p.1).getD []).length
          rw [lookup_of_mem hkeys hp]
          rfl
      _ = ((g.fields.map TcpmsgField.name).map fun k => (k.length : ℤ) + 1 + w k).sum :=
          (hperm.map _).sum_eq
      _ = _ := by
          rw [List.map_map, ← List.sum_map_add]
          rfl
  have hvalue : ∀ f ∈ g.fields, f.min ≤ w f.name ∧ w f.name ≤ f.max := by
    intro f hf
    obtain ⟨v, hv, hrange⟩ := right_iff_lookup.mp (hall f hf)
    change f.min ≤ (((ps.lookup f.name).getD []).length : ℤ) ∧
      (((ps.lookup f.name).getD []).length : ℤ) ≤ f.max
    rw [hv]
    exact of_decide_eq_true hrange
  have hmin : (g.fields.map TcpmsgField.min).sum ≤ (g.fields.map fun f => w f.name).sum :=
    List.sum_le_sum fun f hf => (hvalue f hf).1
  have hmax : (g.fields.map fun f => w f.name).sum ≤ (g.fields.map TcpmsgField.max).sum :=
    List.sum_le_sum fun f hf => (hvalue f hf).2
  unfold Admits StringTable.table namesSize Registration.table
  dsimp only
  rw [length_render, hpairs, hlength]
  constructor <;> linarith

end ChatShow.Antlib.StringSizes
