import ChatShow.Antlib.StringRuns

/-! # Bodies of named values

The body of a string message, `name1=v1&...&namen=vn`, and what `parse_http_values2` makes of it:
where the value of each field begins (`places`), and which string begins there (`strings`). The loop
looks at each character but the last. So a last value that is empty has no place, and one that is
not goes on in what the buffer has behind the body, since no NUL is put there (`valuesLoop_render`). -/

namespace ChatShow.Antlib.StringBodies

open ChatShow.Lib.Cells ChatShow.Lib.CStrings
open ChatShow.Antlib.HttpProtocol ChatShow.Antlib.TcpStringmsg
open ChatShow.Antlib.StringValues (lift found)

/-- The body with the names and values `pairs`. -/
def render : List (List UInt8 × List UInt8) → List UInt8
  | [] => []
  | [(k, v)] => k ++ '='.toUInt8 :: v
  | (k, v) :: p :: ps => k ++ '='.toUInt8 :: (v ++ '&'.toUInt8 :: render (p :: ps))

/-- A text without `=`, `&` and NUL. -/
def Plain (l : List UInt8) : Prop := ∀ b ∈ l, b ≠ '='.toUInt8 ∧ b ≠ '&'.toUInt8 ∧ b ≠ 0

instance (l : List UInt8) : Decidable (Plain l) := List.decidableBAll _ _

/-- Where the values begin, in a body that begins at `c`. -/
def places : ℕ → List (List UInt8 × List UInt8) → List (List UInt8 × ℕ)
  | _, [] => []
  | c, [(k, v)] => if v = [] then [] else [(k, c + k.length + 1)]
  | c, (k, v) :: p :: ps =>
    (k, c + k.length + 1) :: places (c + k.length + 1 + v.length + 1) (p :: ps)

/-- The strings that begin there, where the string behind the body is `tail`. -/
def strings (tail : Option (List UInt8)) :
    List (List UInt8 × List UInt8) → List (List UInt8 × Option (List UInt8))
  | [] => []
  | [(k, v)] => if v = [] then [] else [(k, tail.map (v ++ ·))]
  | (k, v) :: p :: ps => (k, some v) :: strings tail (p :: ps)

/-- What a reader of the entry `o` gets, in a body of `len` bytes with `l` behind it. -/
def entry (F : ℕ → UInt8) (len : ℕ) (l : List UInt8) (o : ℕ) : Option (Option (List UInt8)) :=
  if o = 0 then none else some (cstr (slice F o (len - o) ++ l))

variable {fields : List TcpmsgField} {ps : List (List UInt8 × List UInt8)}
variable {base c i n m o x key : ℕ} {buf : ℕ → UInt8} {vl : List ℕ} {no : Option ℕ} {k v : List UInt8}
variable {f : TcpmsgField} {g : List UInt8 → List ℕ → Option ℕ}

theorem Plain.zero (h : Plain v) : 0 ∉ v := fun h0 => (h 0 h0).2.2 rfl

theorem Plain.take (h : Plain v) (n : ℕ) : Plain (v.take n) :=
  fun b hb => h b (List.mem_of_mem_take hb)

/-! ### One character -/

/-- Characters that are neither `=` nor `&` are passed over. -/
theorem valuesLoop_plain (h : Plain (slice buf c m)) :
    valuesLoop g base (m + n) (c + 1) buf vl no key =
      valuesLoop g base n (c + m + 1) buf vl no key := by
  induction m generalizing c with
  | zero => rw [Nat.zero_add, Nat.add_zero]
  | succ m ih =>
    rw [slice_succ] at h
    obtain ⟨heq, hamp, -⟩ := h (buf c) List.mem_cons_self
    rw [Nat.add_right_comm m 1 n, valuesLoop, Nat.add_sub_cancel, if_neg heq, if_neg hamp,
      ih fun b hb => h b (List.mem_cons_of_mem _ hb), Nat.add_right_comm c 1 m]
    rfl

/-- The entries behind `key=`, where the value begins at `o`. -/
def entered (fields : List TcpmsgField) (key : List UInt8) (o : ℕ) (vl : List ℕ) : List ℕ :=
  match tcpmsgFieldIndex fields key vl with
  | some x => vl.set x o
  | none => vl

/-- At a `=` the name is looked up. -/
theorem valuesLoop_equals (hk : 0 ∉ k) (hname : slice buf c k.length = k)
    (heq : buf (c + k.length) = '='.toUInt8) :
    valuesLoop (tcpmsgFieldIndex fields) 0 (n + 1) (c + k.length + 1) buf vl no c =
      valuesLoop (tcpmsgFieldIndex fields) 0 n (c + k.length + 1 + 1)
        (store buf (c + k.length) [0]) (entered fields k (c + k.length + 1) vl)
        (tcpmsgFieldIndex fields k vl) c := by
  have hkey : (cstr (slice (store buf (c + k.length) [0]) c (c + k.length + 1 - c))).getD [] = k := by
    rw [show c + k.length + 1 - c = k.length + 1 by omega, slice_store_cell, hname,
      cstr_append hk, cstr, if_pos rfl, Option.map_some, List.append_nil]
    rfl
  rw [valuesLoop, Nat.add_sub_cancel, if_pos heq]
  dsimp only
  rw [hkey, Nat.zero_add]
  rfl

/-- At a `&` a value ends, if a field has it. -/
theorem valuesLoop_amp (hamp : buf c = '&'.toUInt8) :
    valuesLoop g base (n + 1) (c + 1) buf vl no key =
      valuesLoop g base n (c + 1 + 1) (if no.isSome then store buf c [0] else buf) vl no (c + 1) := by
  have hne : ¬ buf c = '='.toUInt8 := by
    rw [hamp]
    decide
  rw [valuesLoop, Nat.add_sub_cancel, if_neg hne, if_pos hamp]

/-- The loop does not write in front of its cursor. -/
theorem valuesLoop_front {j : ℕ} (hj : j < c) :
    (valuesLoop g base n (c + 1) buf vl no key).1 j = buf j := by
  induction n generalizing c buf vl no key with
  | zero => rfl
  | succ n ih =>
    have hstore : store buf c [0] j = buf j := store_cell_of_ne (by omega)
    rw [valuesLoop, Nat.add_sub_cancel]
    split_ifs
    · exact (ih (by omega)).trans hstore
    · exact (ih (by omega)).trans hstore
    · exact ih (by omega)
    · exact ih (by omega)

/-! ### Entries -/

theorem length_entered (key : List UInt8) (o : ℕ) (vl : List ℕ) :
    (entered fields key o vl).length = vl.length := by
  unfold entered
  split
  · exact List.length_set
  · rfl

theorem fieldIndex_isSome {key : List UInt8} (hvl : vl.length = fields.length)
    (hx : fields[x]? = some f) (h0 : vl.getD x 0 = 0) (hkey : f.name = key) :
    (tcpmsgFieldIndex fields key vl).isSome := by
  obtain ⟨hlt, rfl⟩ := List.getElem?_eq_some_iff.mp hx
  rw [List.getD_eq_getElem _ _ (hvl ▸ hlt)] at h0
  unfold tcpmsgFieldIndex
  rw [List.findIdx?_isSome, List.any_eq_true]
  refine ⟨(fields[x], vl[x]), ?_, decide_eq_true ⟨h0, hkey⟩⟩
  rw [List.mem_iff_getElem]
  exact ⟨x, by rw [List.length_zip]; omega, List.getElem_zip⟩

/-- **A value is entered for the field that has its name, unless the field has a value.** -/
theorem getD_entered {key : List UInt8} (hnames : (fields.map TcpmsgField.name).Nodup)
    (hvl : vl.length = fields.length) (hx : fields[x]? = some f) :
    (entered fields key o vl).getD x 0 =
      if vl.getD x 0 = 0 ∧ f.name = key then o else vl.getD x 0 := by
  unfold entered
  cases hg : tcpmsgFieldIndex fields key vl with
  | none =>
    rw [if_neg]
    rintro ⟨h0, hkey⟩
    have := fieldIndex_isSome hvl hx h0 hkey
    rw [hg] at this
    cases this
  | some y =>
    obtain ⟨hlt, rfl⟩ := List.getElem?_eq_some_iff.mp hx
    unfold tcpmsgFieldIndex at hg
    obtain ⟨hy, hfound, -⟩ := List.findIdx?_eq_some_iff_getElem.mp hg
    rw [List.getElem_zip] at hfound
    obtain ⟨h0, hkey⟩ := of_decide_eq_true hfound
    rw [List.length_zip] at hy
    dsimp only at h0 hkey ⊢
    by_cases hxy : x = y
    · subst hxy
      have hlt' : x < vl.length := hvl ▸ hlt
      rw [List.getD_eq_getElem _ _ hlt', h0, if_pos ⟨rfl, hkey⟩, List.getD_eq_getElem?_getD,
        List.getElem?_set_self hlt']
      rfl
    · have hne : ¬ fields[x].name = key := by
        intro he
        have hmap : (fields.map TcpmsgField.name)[x]? = (fields.map TcpmsgField.name)[y]? := by
          rw [List.getElem?_map, List.getElem?_map, hx, List.getElem?_eq_getElem (by omega),
            Option.map_some, Option.map_some, he, hkey]
        exact hxy ((List.getElem?_inj (by rwa [List.length_map]) hnames).mp hmap)
      rw [if_neg fun h => hne h.2, List.getD_eq_getElem?_getD, List.getElem?_set_ne (Ne.symm hxy),
        ← List.getD_eq_getElem?_getD]

/-! ### Bodies -/

/-- The buffer behind a pair with `&`. -/
def cut (buf : ℕ → UInt8) (c : ℕ) (k v : List UInt8) (no : Option ℕ) : ℕ → UInt8 :=
  let buf := store buf (c + k.length) [0]
  if no.isSome then store buf (c + k.length + 1 + v.length) [0] else buf

/-- **A pair with the `&` behind it.** -/
theorem valuesLoop_pair (hk : Plain k) (hv : Plain v) (hname : slice buf c k.length = k)
    (heq : buf (c + k.length) = '='.toUInt8) (hval : slice buf (c + k.length + 1) v.length = v)
    (hamp : buf (c + k.length + 1 + v.length) = '&'.toUInt8) :
    valuesLoop (tcpmsgFieldIndex fields) 0 (k.length + (v.length + (n + 1) + 1)) (c + 1) buf vl no c =
      valuesLoop (tcpmsgFieldIndex fields) 0 n (c + k.length + 1 + v.length + 1 + 1)
        (cut buf c k v (tcpmsgFieldIndex fields k vl)) (entered fields k (c + k.length + 1) vl)
        (tcpmsgFieldIndex fields k vl) (c + k.length + 1 + v.length + 1) := by
  have hval' : slice (store buf (c + k.length) [0]) (c + k.length + 1) v.length = v := by
    rw [slice_store_cell_of_disjoint (Or.inr (Nat.lt_succ_self _)), hval]
  have hamp' : store buf (c + k.length) [0] (c + k.length + 1 + v.length) = '&'.toUInt8 := by
    rw [store_cell_of_ne (by omega), hamp]
  rw [valuesLoop_plain (hname.symm ▸ hk), valuesLoop_equals hk.zero hname heq,
    valuesLoop_plain (hval'.symm ▸ hv), valuesLoop_amp hamp']
  rfl

theorem cut_behind {j : ℕ} (hj : c + k.length + 1 + v.length < j) : cut buf c k v no j = buf j := by
  unfold cut
  split_ifs
  · rw [store_cell_of_ne (by omega), store_cell_of_ne (by omega)]
  · exact store_cell_of_ne (by omega)

/-- The value of a field ends where the `&` was. -/
theorem slice_cut (hval : slice buf (c + k.length + 1) v.length = v) (hno : no.isSome) :
    slice (cut buf c k v no) (c + k.length + 1) (v.length + 1) = v ++ [0] := by
  unfold cut
  rw [if_pos hno, slice_store_cell, slice_store_cell_of_disjoint (Or.inr (Nat.lt_succ_self _)), hval]

theorem entry_cut {F : ℕ → UInt8} {len : ℕ} (hval : slice buf (c + k.length + 1) v.length = v)
    (hv : 0 ∉ v) (hno : no.isSome)
    (hF : ∀ j < c + k.length + 1 + v.length + 1, F j = cut buf c k v no j)
    (hlen : c + k.length + 1 + v.length + 1 ≤ len) (l : List UInt8) :
    entry F len l (c + k.length + 1) = some (some v) := by
  have hcells : slice F (c + k.length + 1) (v.length + 1) = v ++ [0] :=
    (slice_congr fun j _ hj => hF j (by omega)).trans (slice_cut hval hno)
  rw [entry, if_neg (Nat.succ_ne_zero _), show len - (c + k.length + 1) =
    v.length + 1 + (len - (c + k.length + 1 + v.length + 1)) by omega, slice_add, hcells,
    List.append_assoc, List.append_assoc, cstr_append hv, List.singleton_append, cstr, if_pos rfl,
    Option.map_some, List.append_nil]

/-- **The last pair**: its last character is not looked at. -/
theorem valuesLoop_last (hk : Plain k) (hv : Plain v) (hne : v ≠ [])
    (hname : slice buf c k.length = k)
    (heq : buf (c + k.length) = '='.toUInt8) (hval : slice buf (c + k.length + 1) v.length = v) :
    valuesLoop (tcpmsgFieldIndex fields) 0 (k.length + v.length) (c + 1) buf vl no c =
      (store buf (c + k.length) [0], entered fields k (c + k.length + 1) vl) := by
  obtain ⟨m, hm⟩ := Nat.exists_eq_succ_of_ne_zero (List.length_pos_iff.mpr hne).ne'
  have hfront : slice (store buf (c + k.length) [0]) (c + k.length + 1) m = v.take m := by
    rw [slice_store_cell_of_disjoint (Or.inr (Nat.lt_succ_self _)), ← hval, take_slice, hm,
      Nat.min_eq_left (Nat.le_succ m)]
  rw [hm, valuesLoop_plain (hname.symm ▸ hk), valuesLoop_equals hk.zero hname heq]
  exact valuesLoop_plain (n := 0) (hfront.symm ▸ hv.take m)

theorem length_render_pos (p : List UInt8 × List UInt8) (ps : List (List UInt8 × List UInt8)) :
    0 < (render (p :: ps)).length := by
  cases ps with
  | nil =>
    rw [render, List.length_append, List.length_cons]
    omega
  | cons q qs =>
    rw [render, List.length_append, List.length_cons]
    omega

theorem length_valuesLoop (n i : ℕ) (buf : ℕ → UInt8) (vl : List ℕ) (no : Option ℕ) (key : ℕ) :
    (valuesLoop g base n i buf vl no key).2.length = vl.length := by
  induction n generalizing i buf vl no key with
  | zero => rfl
  | succ n ih =>
    rw [valuesLoop]
    split_ifs
    · refine (ih _ _ _ _ _).trans ?_
      split
      · exact List.length_set
      · rfl
    · exact ih _ _ _ _ _
    · exact ih _ _ _ _ _
    · exact ih _ _ _ _ _

/-- A field that has a value keeps it. -/
theorem valuesLoop_keeps (hnames : (fields.map TcpmsgField.name).Nodup)
    (hvl : vl.length = fields.length) (hx : fields[x]? = some f) (hne : vl.getD x 0 ≠ 0) :
    (valuesLoop (tcpmsgFieldIndex fields) 0 n i buf vl no key).2.getD x 0 = vl.getD x 0 := by
  induction n generalizing i buf vl no key with
  | zero => rfl
  | succ n ih =>
    have hkeep (name : List UInt8) : (entered fields name (0 + i) vl).getD x 0 = vl.getD x 0 := by
      rw [getD_entered hnames hvl hx, if_neg fun h => hne h.1]
    rw [valuesLoop]
    split_ifs
    · refine (ih ((length_entered _ (0 + i) vl).trans hvl) ?_).trans (hkeep _)
      rw [← hkeep] at hne
      exact hne
    · exact ih hvl hne
    · exact ih hvl hne
    · exact ih hvl hne

theorem lookup_cons_of_ne {α : Type*} {name : List UInt8} {a : α} {es : List (List UInt8 × α)}
    (h : name ≠ k) : ((k, a) :: es).lookup name = es.lookup name := by
  rw [List.lookup_cons, beq_false_of_ne h]

/-- What the loop makes of a body of one pair. An `=` that is its last character is not looked at. -/
theorem valuesLoop_render_one (hnames : (fields.map TcpmsgField.name).Nodup)
    (hvl : vl.length = fields.length) (hk : Plain k) (hv : Plain v)
    (hbuf : slice buf c (render [(k, v)]).length = render [(k, v)]) (hx : fields[x]? = some f)
    (h0 : vl.getD x 0 = 0) (l : List UInt8) :
    let r := valuesLoop (tcpmsgFieldIndex fields) 0 ((render [(k, v)]).length - 1) (c + 1) buf vl no c
    r.2.getD x 0 = ((places c [(k, v)]).lookup f.name).getD 0 ∧
      entry r.1 (c + (render [(k, v)]).length) l (r.2.getD x 0) =
        (strings (cstr l) [(k, v)]).lookup f.name := by
  have hentered : (entered fields k (c + k.length + 1) vl).getD x 0 = _ :=
    getD_entered hnames hvl hx
  rw [h0] at hentered
  obtain ⟨hname, hbuf⟩ := slice_append_eq.mp hbuf
  obtain ⟨heq, hval⟩ := slice_cons_eq.mp hbuf
  have hlen : (render [(k, v)]).length = k.length + (v.length + 1) := List.length_append
  rw [hlen, places, strings]
  by_cases hne : v = []
  · subst hne
    have hcount : k.length + (([] : List UInt8).length + 1) - 1 = k.length + 0 := rfl
    rw [if_pos rfl, if_pos rfl, hcount, valuesLoop_plain (hname.symm ▸ hk)]
    exact ⟨h0, if_pos h0⟩
  rw [if_neg hne, if_neg hne, ← Nat.add_assoc, Nat.add_sub_cancel,
    valuesLoop_last hk hv hne hname heq hval]
  dsimp only
  rw [hentered]
  by_cases hfk : f.name = k
  · have hcell : slice (store buf (c + k.length) [0]) (c + k.length + 1) v.length = v := by
      rw [slice_store_cell_of_disjoint (Or.inr (Nat.lt_succ_self _)), hval]
    rw [if_pos ⟨rfl, hfk⟩, hfk, List.lookup_cons_self, List.lookup_cons_self, entry,
      if_neg (Nat.succ_ne_zero _),
      show c + (k.length + v.length + 1) - (c + k.length + 1) = v.length by omega, hcell,
      cstr_append hv.zero]
    exact ⟨rfl, rfl⟩
  · rw [if_neg fun h => hfk h.2, lookup_cons_of_ne hfk, lookup_cons_of_ne hfk]
    exact ⟨rfl, if_pos rfl⟩

/-- **What the loop makes of a body**, for a field that has no value in front of it. -/
theorem valuesLoop_render (hnames : (fields.map TcpmsgField.name).Nodup)
    (hvl : vl.length = fields.length) (hps : ∀ p ∈ ps, Plain p.1 ∧ Plain p.2)
    (hbuf : slice buf c (render ps).length = render ps) (hx : fields[x]? = some f)
    (h0 : vl.getD x 0 = 0) (l : List UInt8) :
    let r := valuesLoop (tcpmsgFieldIndex fields) 0 ((render ps).length - 1) (c + 1) buf vl no c
    r.2.getD x 0 = ((places c ps).lookup f.name).getD 0 ∧
      entry r.1 (c + (render ps).length) l (r.2.getD x 0) = (strings (cstr l) ps).lookup f.name := by
  induction ps generalizing c buf vl no with
  | nil =>
    change vl.getD x 0 = 0 ∧ entry buf (c + 0) l (vl.getD x 0) = none
    exact ⟨h0, if_pos h0⟩
  | cons p ps ih =>
    obtain ⟨k, v⟩ := p
    obtain ⟨hk, hv⟩ := hps (k, v) List.mem_cons_self
    cases ps with
    | nil => exact valuesLoop_render_one hnames hvl hk hv hbuf hx h0 l
    | cons q qs =>
      have hentered : (entered fields k (c + k.length + 1) vl).getD x 0 = _ :=
        getD_entered hnames hvl hx
      rw [h0] at hentered
      obtain ⟨hname, hbuf⟩ := slice_append_eq.mp hbuf
      obtain ⟨heq, hbuf⟩ := slice_cons_eq.mp hbuf
      obtain ⟨hval, hbuf⟩ := slice_append_eq.mp hbuf
      obtain ⟨hamp, hrest⟩ := slice_cons_eq.mp hbuf
      have hlen : (render ((k, v) :: q :: qs)).length =
          k.length + (v.length + ((render (q :: qs)).length + 1) + 1) := by
        rw [render, List.length_append, List.length_cons, List.length_append, List.length_cons]
      obtain ⟨n, hn⟩ := Nat.exists_eq_succ_of_ne_zero (length_render_pos q qs).ne'
      have hcount :
          (render ((k, v) :: q :: qs)).length - 1 = k.length + (v.length + (n + 1) + 1) := by
        rw [hlen, hn]
        omega
      have hend : c + (render ((k, v) :: q :: qs)).length =
          c + k.length + 1 + v.length + 1 + (render (q :: qs)).length := by
        rw [hlen]
        omega
      have hbuf' : ∀ no, slice (cut buf c k v no) (c + k.length + 1 + v.length + 1)
          (render (q :: qs)).length = render (q :: qs) := fun no =>
        (slice_congr fun j hj _ => cut_behind (by omega)).trans hrest
      have hvl' : (entered fields k (c + k.length + 1) vl).length = fields.length :=
        (length_entered k (c + k.length + 1) vl).trans hvl
      rw [hcount, hend, valuesLoop_pair hk hv hname heq hval hamp, places, strings]
      by_cases hfk : f.name = k
      · rw [if_pos ⟨rfl, hfk⟩] at hentered
        have hne : (entered fields k (c + k.length + 1) vl).getD x 0 ≠ 0 := by
          rw [hentered]
          exact Nat.succ_ne_zero _
        dsimp only
        rw [valuesLoop_keeps hnames hvl' hx hne, hentered, hfk, List.lookup_cons_self,
          List.lookup_cons_self]
        exact ⟨rfl, entry_cut hval hv.zero (fieldIndex_isSome hvl hx h0 hfk)
          (fun j hj => valuesLoop_front hj) (Nat.le_add_right _ _) l⟩
      · rw [if_neg fun h => hfk h.2] at hentered
        rw [lookup_cons_of_ne hfk, lookup_cons_of_ne hfk,
          show n = (render (q :: qs)).length - 1 by omega]
        exact ih hvl' (fun p hp => hps p (List.mem_cons_of_mem _ hp)) (hbuf' _) hentered

/-- Where the value of a field begins, or 0. -/
def place (ps : List (List UInt8 × List UInt8)) (f : TcpmsgField) : ℕ :=
  ((places 0 ps).lookup f.name).getD 0

/-- **What `parse_http_values2` makes of a body.** -/
theorem found_render (hnames : (fields.map TcpmsgField.name).Nodup)
    (hps : ∀ p ∈ ps, Plain p.1 ∧ Plain p.2) :
    (found fields (render ps)).2 = fields.map (place ps) ∧
      ∀ f ∈ fields, ∀ l, entry (found fields (render ps)).1 (render ps).length l (place ps f) =
        (strings (cstr l) ps).lookup f.name := by
  have hzeros (x : ℕ) : (List.replicate fields.length 0).getD x 0 = 0 := by
    rw [List.getD_eq_getElem?_getD, List.getElem?_getD_replicate_default_eq]
  have hbuf : slice (cells (render ps)) 0 (render ps).length = render ps := by
    rw [slice_cells (Nat.zero_add _).le, List.drop_zero, List.take_length]
  have hlen : (found fields (render ps)).2.length = fields.length :=
    (length_valuesLoop _ _ _ _ _ _).trans List.length_replicate
  have hloop {x : ℕ} {f : TcpmsgField} (hx : fields[x]? = some f) (l : List UInt8) :
      (found fields (render ps)).2.getD x 0 = ((places 0 ps).lookup f.name).getD 0 ∧
        entry (found fields (render ps)).1 (render ps).length l
          ((found fields (render ps)).2.getD x 0) = (strings (cstr l) ps).lookup f.name := by
    rw [← Nat.zero_add (render ps).length]
    exact valuesLoop_render hnames List.length_replicate hps hbuf hx (hzeros x) l
  refine ⟨List.ext_getElem? fun x => ?_, fun f hf l => ?_⟩
  · rw [List.getElem?_map]
    cases hx : fields[x]? with
    | none =>
      rw [List.getElem?_eq_none (hlen.trans_le (List.getElem?_eq_none_iff.mp hx))]
      rfl
    | some f =>
      have hlt := (List.getElem?_eq_some_iff.mp hx).1
      have hplace := (hloop hx []).1
      rw [List.getD_eq_getElem _ _ (hlen.symm ▸ hlt)] at hplace
      rw [List.getElem?_eq_getElem (hlen.symm ▸ hlt), hplace]
      rfl
  · obtain ⟨x, hx⟩ := List.getElem?_of_mem hf
    obtain ⟨hplace, hentry⟩ := hloop hx l
    rwa [hplace] at hentry

end ChatShow.Antlib.StringBodies
