import ChatShow.Antlib.StringFields

/-! # String messages from registration to handler

A table is registered, a message is asked for under the keys it is found under, and the body comes
in chunks (`served`). The handler is to get each field with exactly its value, and a body that is
not complete is to be refused (`expected`). `served_iff` says when it is so. A body with an empty
last value never gets to its handler, the byte behind the body has to be a NUL, and sizes have to be
`int`s. -/

namespace ChatShow.Antlib.StringServed

open ChatShow.Lib.Cells ChatShow.Lib.CStrings
open ChatShow.Antlib.TcpMsglist ChatShow.Antlib.TcpStringmsg
open ChatShow.Antlib.StringValues ChatShow.Antlib.StringRuns
open ChatShow.Antlib.StringBodies ChatShow.Antlib.StringSizes ChatShow.Antlib.StringFields

/-- Asking with keys that the table `t` is found under. -/
def finding (a : Ask) (t : StringTable) : Ask :=
  { a with
    tables := fun key1 key2 =>
      if key1 = a.key1.getD [] ∧ key2 = a.key2.getD [] then some t else a.tables key1 key2 }

/-- What becomes of a body, from the registration of its table on. -/
def served (g : Registration) (a : Ask) (ps : List (List UInt8 × List UInt8)) (r : Run) : Outcome :=
  match g.regist with
  | none => .fault
  | some none => .refused
  | some (some (t, _)) => (finding a t).outcome (render ps).length r

/-- The fields of a string table, and a body with names and values. A body that is complete has each
field once, in any order, and nothing else. -/
structure Filled (fields : List TcpmsgField) (ps : List (List UInt8 × List UInt8)) : Prop where
  ne : fields ≠ []
  text : ∀ f ∈ fields, f.type = 0
  names : (fields.map TcpmsgField.name).Nodup
  short : ∀ f ∈ fields, f.name.length ≤ 31
  plain : ∀ p ∈ ps, Plain p.1 ∧ Plain p.2
  once : Complete fields ps →
    (ps.map Prod.fst).Nodup ∧ ∀ p ∈ ps, p.1 ∈ fields.map TcpmsgField.name

/-- **When a body is served as it is to be.** -/
def Exact (g : Registration) (ps : List (List UInt8 × List UInt8)) (r : Run) : Prop :=
  let n := (render ps).length
  SizesFit g.fields ∧
    if Complete g.fields ps then
      RoomFor g.fields n ∧ (∃ p ∈ ps.getLast?, p.2 ≠ []) ∧ r.block n = 0
    else
      ¬ Admits g.table n ∨ RoomFor g.fields n ∧
        StillRefused (behindBody g.fields ps r.base (blockSize g.fields n) r.block) g.fields ps

variable {g : Registration} {a : Ask} {t : StringTable} {ps : List (List UInt8 × List UInt8)}
    {r : Run}
variable {fields : List TcpmsgField} {n : ℕ}

/-! ### Asking for a message -/

/-- **What becomes of `n` bytes**, where the table is found. -/
theorem outcome_finding (hkeys : a.key1.getD [] ≠ [] ∧ a.key2.getD [] ≠ []) (hne : t.fields ≠ []) :
    (¬ Admits t n → (finding a t).outcome n r = .refused) ∧
      (Admits t n → ¬ RoomFor t.fields n → (finding a t).outcome n r = .fault) ∧
      (Admits t n → RoomFor t.fields n → ∃ msg, Made t.fields n msg ∧ msg.data.buf = r.block ∧
        streamSize msg = blockSize t.fields n ∧
        (finding a t).outcome n r = deliver t.fields r.base msg r.chunks) := by
  have hpos : 0 < t.table.n := List.length_pos_iff.mpr hne
  have hget : tcpmsgGetbykey (finding a t).tables r.block (finding a t).key1 (finding a t).key2 n
      (finding a t).userid (finding a t).netid (finding a t).ip =
      if ¬ Admits t n then some none
      else (createTcpstream r.block a.userid t.id n t.table t.table.n a.netid a.ip).map fun msg =>
        some (msg, t.fields) := by
    unfold tcpmsgGetbykey finding Admits
    dsimp only
    rw [if_neg (not_or.mpr hkeys), if_pos ⟨rfl, rfl⟩]
    refine if_congr ?_ rfl rfl
    omega
  unfold Ask.outcome
  rw [hget]
  refine ⟨fun h => ?_, fun h hroom => ?_, fun h hroom => ?_⟩
  · rw [if_pos h]
  · rw [if_neg (not_not_intro h), createTcpstream_none hroom]
    rfl
  · obtain ⟨msg, hm, hsize, hmsg⟩ := createTcpstream_room a.userid t.id a.netid a.ip hroom
    rw [if_neg (not_not_intro h), hmsg]
    exact ⟨inBlock msg r.block, hm.inBlock r.block, rfl, hsize, rfl⟩

theorem behindBody_empty {base size : ℕ} {block : ℕ → UInt8} (hsize : (render ps).length < size) :
    behindBody fields ps base size block = some [] ↔ block (render ps).length = 0 := by
  obtain ⟨m, hm⟩ := Nat.exists_eq_succ_of_ne_zero (Nat.sub_pos_of_lt hsize).ne'
  unfold behindBody
  dsimp only
  have hcell : streamCell ⟨⟨0, 0, 0⟩, fields.map fun f => lift base (place ps f), 0, 0, 0,
      (render ps).length, block⟩ (render ps).length = block (render ps).length :=
    Holds.streamCell (F := block) ⟨rfl, fun _ _ => rfl⟩ (by omega)
  rw [hm, slice_succ, hcell, cstr]
  split_ifs with h0
  · exact iff_of_true rfl h0
  · refine iff_of_false (fun h => ?_) h0
    obtain ⟨l, -, hl⟩ := Option.map_eq_some_iff.mp h
    cases hl

/-- **What becomes of a body of the table's fields**, where the table is found. -/
theorem outcome_filled (hf : Filled g.fields ps)
    (hkeys : a.key1.getD [] ≠ [] ∧ a.key2.getD [] ≠ []) (hr : r.Brings (render ps))
    (hadmits : Admits g.table (render ps).length) (hroom : RoomFor g.fields (render ps).length) :
    (finding a g.table).outcome (render ps).length r =
      verdict (fun name => (strings (behindBody g.fields ps r.base
        (blockSize g.fields (render ps).length) r.block) ps).lookup name) g.fields := by
  obtain ⟨msg, hm, hbuf, hsize, hout⟩ :=
    (@outcome_finding a g.table r (render ps).length hkeys hf.ne).2.2 hadmits hroom
  have hm' : Made g.fields (render ps).length msg := hm
  have hwhole := @whole_render g.fields ps r.base msg hm' hf.ne hf.text hf.names hf.plain
  rw [hsize, hbuf] at hwhole
  exact (hout.trans (deliver_made hm' hr)).trans hwhole

/-- **A body is served as it is to be** when the sizes are `int`s and, if it is complete, its last
value is not empty and the byte behind it is a NUL. One that is not complete is refused by its size,
or by a field that is wrong whatever is behind the body. -/
theorem served_exactly_iff (hf : Filled g.fields ps) (hreg : g.regist ≠ some none)
    (hkeys : a.key1.getD [] ≠ [] ∧ a.key2.getD [] ≠ []) (hr : r.Brings (render ps)) :
    served g a ps r = expected g.fields ps ↔ Exact g ps r := by
  have hblock : (render ps).length < blockSize g.fields (render ps).length := by
    unfold blockSize
    omega
  unfold served Exact
  dsimp only
  obtain ⟨hsizes, hnone⟩ | ⟨hsizes, hsome⟩ := regist_cases hreg hf.short
  · rw [hnone]
    refine iff_of_false (fun h => ?_) fun h => hsizes h.1
    unfold expected at h
    split_ifs at h
  obtain ⟨hrefused, hfault, -⟩ := @outcome_finding a g.table r (render ps).length hkeys hf.ne
  rw [hsome, and_iff_right hsizes]
  dsimp only
  by_cases hall : Complete g.fields ps
  · obtain ⟨hnodup, hknown⟩ := hf.once hall
    have hadmits := render_admitted hf.names hnodup hknown hall
    rw [if_pos hall]
    by_cases hroom : RoomFor g.fields (render ps).length
    · rw [outcome_filled hf hkeys hr hadmits hroom, and_iff_right hroom]
      obtain rfl | ⟨front, ⟨k, v⟩, rfl⟩ := List.eq_nil_or_concat' ps
      · obtain ⟨f, hmem⟩ := List.exists_mem_of_ne_nil _ hf.ne
        cases hall f hmem
      have hk : k ∈ g.fields.map TcpmsgField.name := hknown (k, v) (by simp)
      rw [verdict_complete hnodup hk hall, behindBody_empty hblock, List.getLast?_concat]
      exact and_congr_left' ⟨fun h => ⟨(k, v), rfl, h⟩, fun ⟨p, hp, h⟩ => by cases hp; exact h⟩
    · rw [hfault hadmits hroom]
      refine iff_of_false (fun h => ?_) fun h => hroom h.1
      unfold expected at h
      split_ifs at h
  · have hexpected : expected g.fields ps = .refused := if_neg hall
    rw [if_neg hall, hexpected]
    by_cases hadmits : Admits g.table (render ps).length
    · rw [or_iff_right (not_not_intro hadmits)]
      by_cases hroom : RoomFor g.fields (render ps).length
      · rw [outcome_filled hf hkeys hr hadmits hroom, verdict_refused_iff hall, and_iff_right hroom]
      · rw [hfault hadmits hroom]
        exact iff_of_false (fun h => (nomatch h)) fun h => hroom h.1
    · rw [hrefused hadmits]
      exact iff_of_true rfl (Or.inl hadmits)

/-- A table with two fields, strings of at most ten characters with the names `a` and `b`. -/
def twoFields : Registration where
  taken _ := false
  tables _ _ := none
  key1 := some [107]
  key2 := some [107]
  id := 1
  fields := [⟨[97], 0, 10, 0⟩, ⟨[98], 0, 10, 0⟩]

theorem twoFields_regist : twoFields.regist ≠ some none := by
  have h : twoFields.regist = some (some (twoFields.table, 5, 25)) := rfl
  rw [h]
  simp

/-- The body `b=&a=1` is handled. -/
theorem served_empty_first :
    served twoFields oneField [([98], []), ([97], [49])]
        ⟨fun _ => 0, 4096, [[98, 61, 38, 97, 61, 49]]⟩ =
      expected twoFields.fields [([98], []), ([97], [49])] :=
  (served_exactly_iff
    ⟨by decide, by decide, by decide, by decide, by decide +kernel, fun _ => by decide +kernel⟩
    twoFields_regist (by decide) (by decide +kernel)).mpr
      ⟨by decide +kernel, by
        rw [if_pos (by decide +kernel)]
        exact ⟨by decide +kernel, ⟨([97], [49]), rfl, by decide⟩, rfl⟩⟩

/-- **The body `a=1&b=` is refused.** -/
theorem not_served_exactly : ¬ ∀ (g : Registration) (a : Ask) (ps : List (List UInt8 × List UInt8))
    (r : Run), Filled g.fields ps → g.regist ≠ some none →
      a.key1.getD [] ≠ [] ∧ a.key2.getD [] ≠ [] → r.Brings (render ps) →
        served g a ps r = expected g.fields ps := by
  intro h
  have := h twoFields oneField [([97], [49]), ([98], [])]
    ⟨fun _ => 0, 4096, [[97, 61, 49, 38, 98, 61]]⟩
    ⟨by decide, by decide, by decide, by decide, by decide +kernel, fun _ => by decide +kernel⟩
    twoFields_regist (by decide) (by decide +kernel)
  exact absurd this (by decide +kernel)

end ChatShow.Antlib.StringServed
