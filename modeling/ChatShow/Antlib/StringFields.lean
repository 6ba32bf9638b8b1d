import ChatShow.Antlib.StringSizes

/-! # The fields of string messages

What becomes of a message whose body has the values of a string table's fields. The handler is to
get each field with exactly its value, and a body that lacks a field, or has a value whose length is
not in the range of its field, is to be refused. What happens is `verdict` on the strings that the
fields get (`whole_render`). They are the values, but for the last one: an empty one is not found,
and one that is not empty has the string behind the body in it. -/

namespace ChatShow.Antlib.StringFields

open ChatShow.Lib.Cells ChatShow.Lib.CStrings
open ChatShow.Antlib.TcpMsglist ChatShow.Antlib.TcpStringmsg
open ChatShow.Antlib.HttpTurns (parsed)
open ChatShow.Antlib.StringValues ChatShow.Antlib.StringRuns
open ChatShow.Antlib.StringBodies ChatShow.Antlib.StringSizes

/-- What is to become of a body. -/
def expected (fields : List TcpmsgField) (ps : List (List UInt8 × List UInt8)) : Outcome :=
  if Complete fields ps then .handled (fields.map fun f => (ps.lookup f.name).map .text) else .refused

/-- The field gets a string whose length is in its range. `given` has the strings by the names of
the fields: a string may be missing, or have no end in the block. -/
def taken (given : List UInt8 → Option (Option (List UInt8))) (f : TcpmsgField) : Bool :=
  (given f.name).join.any (inRange f)

/-- What `parse_stringmsg` makes of the strings: the first field that does not get one decides. -/
def verdict (given : List UInt8 → Option (Option (List UInt8))) (fields : List TcpmsgField) :
    Outcome :=
  match fields.find? fun f => !taken given f with
  | none => .handled (fields.map fun f => (given f.name).join.map .text)
  | some f => if given f.name = some none then .fault else .refused

/-- The string behind the body, in a block with `size` cells from `_buf` on: four bytes that nothing
sets, the places of the values, and what is left in the block. -/
def behindBody (fields : List TcpmsgField) (ps : List (List UInt8 × List UInt8)) (base size : ℕ)
    (block : ℕ → UInt8) : Option (List UInt8) :=
  let len := (render ps).length
  let vl := fields.map fun f => lift base (place ps f)
  cstr (slice (streamCell ⟨⟨0, 0, 0⟩, vl, 0, 0, 0, len, block⟩) len (size - len))

/-- **When a body that is to be refused is refused.** Its last value does not matter if it is empty
or a field has one in front of it, or if a field is wrong that is registered before that of the last
value. Else the string behind the body must end, and with it in the last value some field must be
wrong. -/
def StillRefused (tail : Option (List UInt8)) (fields : List TcpmsgField)
    (ps : List (List UInt8 × List UInt8)) : Prop :=
  ∀ p ∈ ps.getLast?, p.2 = [] ∨ p.1 ∈ ps.dropLast.map Prod.fst ∨
    (∃ f ∈ fields.takeWhile fun f => f.name ≠ p.1, ¬ right ps f) ∨
    ∃ l ∈ tail, ∃ f ∈ fields, ¬ if f.name = p.1 then inRange f (p.2 ++ l) else right ps f

variable {fields : List TcpmsgField} {ps front : List (List UInt8 × List UInt8)}
variable {given : List UInt8 → Option (Option (List UInt8))} {base size i : ℕ} {s s' : TcpStream}
variable {msg : HandlerMsg} {f : TcpmsgField} {k v name : List UInt8} {tail : Option (List UInt8)}

/-! ### The loop over the fields -/

/-- The string that the entry `x` of `_vl` points at. -/
def pointed (base size : ℕ) (s : TcpStream) (x : ℕ) : Option (Option (List UInt8)) :=
  if s.vl.getD x 0 = 0 then none else some (streamStr base size s (s.vl.getD x 0))

theorem taken_iff : taken given f ↔ ∃ v, given f.name = some (some v) ∧ inRange f v := by
  unfold taken
  cases given f.name with
  | none => exact ⟨fun h => (nomatch h), fun ⟨v, hv, _⟩ => (nomatch hv)⟩
  | some o =>
    cases o with
    | none => exact ⟨fun h => (nomatch h), fun ⟨v, hv, _⟩ => (nomatch hv)⟩
    | some v => exact ⟨fun h => ⟨v, rfl, h⟩, fun ⟨w, hw, h⟩ => by cases hw; exact h⟩

/-- A turn of the loop of `parse_stringmsg`, for a field that is a string. -/
theorem fieldsLoop_turn (htext : f.type = 0) (fs : List TcpmsgField) :
    fieldsLoop base size (f :: fs) i s =
      match pointed base size s i with
      | none => some none
      | some none => none
      | some (some v) => if inRange f v then fieldsLoop base size fs (i + 1) s else some none := by
  unfold pointed
  by_cases h0 : s.vl.getD i 0 = 0
  · rw [if_pos h0, fieldsLoop]
    exact if_pos h0
  rw [if_neg h0]
  cases hstr : streamStr base size s (s.vl.getD i 0) with
  | none =>
    rw [fieldsLoop]
    dsimp only
    rw [if_neg h0, hstr]
  | some v =>
    have hsame : convert f i v s = s := if_neg (not_not_intro htext)
    rw [fieldsLoop_cons fs i s h0 hstr, hsame]
    unfold inRange
    dsimp only
    split_ifs with hout hin hin
    · have := of_decide_eq_true hin
      omega
    · rfl
    · rfl
    · have := of_decide_eq_false (Bool.not_eq_true _ ▸ hin)
      omega

/-- **The loop of `parse_stringmsg`, over fields that are strings.** -/
theorem fieldsLoop_text (htext : ∀ f ∈ fields, f.type = 0)
    (hgiven : ∀ j f, fields[j]? = some f → pointed base size s (i + j) = given f.name) :
    fieldsLoop base size fields i s = (fields.find? fun f => !taken given f).elim (some (some s))
      fun f => if given f.name = some none then none else some none := by
  induction fields generalizing i with
  | nil => rfl
  | cons f fs ih =>
    have hf : pointed base size s i = given f.name := hgiven 0 f rfl
    have hrest := ih (i := i + 1) (fun f hf => htext f (List.mem_cons_of_mem _ hf)) fun j g hj => by
      rw [Nat.add_assoc, Nat.add_comm 1 j]
      exact hgiven (j + 1) g hj
    rw [fieldsLoop_turn (htext f List.mem_cons_self), hf]
    by_cases ht : taken given f
    · obtain ⟨v, hv, hin⟩ := taken_iff.mp ht
      rw [List.find?_cons_of_neg (by simpa using ht), hv]
      exact (if_pos hin).trans hrest
    · rw [List.find?_cons_of_pos (by simpa using ht), Option.elim_some]
      cases hv : given f.name with
      | none => rfl
      | some o =>
        cases o with
        | none => rfl
        | some v => exact if_neg fun hin => ht (taken_iff.mpr ⟨v, hv, hin⟩)

/-! ### A message with a body -/

theorem streamCell_congr (hlen : s.len = s'.len) (hvl : s.vl = s'.vl) (hbuf : s.buf i = s'.buf i) :
    streamCell s i = streamCell s' i := by
  unfold streamCell
  rw [hlen, hvl, hbuf]

/-- **The strings that the fields get.** -/
theorem pointed_valued (hnames : (fields.map TcpmsgField.name).Nodup)
    (hps : ∀ p ∈ ps, Plain p.1 ∧ Plain p.2) (hlen : s.len = (render ps).length)
    (hvl : s.vl = List.replicate fields.length 0) (hsize : (render ps).length ≤ size)
    {block : ℕ → UInt8} (hbuf : s.buf = store block 0 (render ps)) {x : ℕ}
    (hx : fields[x]? = some f) :
    pointed base size (valued fields base s) x =
      (strings (behindBody fields ps base size block) ps).lookup f.name := by
  obtain ⟨hfound, hentry⟩ := found_render hnames hps
  have hbody : Holds (cells (render ps)) (render ps).length s := by
    refine ⟨hlen, fun j hj => ?_⟩
    rw [hbuf]
    exact (holds_body hlen block).2 j hj
  obtain ⟨hholds, hvalued⟩ := @valued_spec fields (render ps) base s hbody hvl
  rw [hfound, List.map_map] at hvalued
  have hx' : (valued fields base s).vl.getD x 0 = lift base (place ps f) := by
    rw [hvalued, List.getD_eq_getElem?_getD, List.getElem?_map, hx]
    rfl
  have htail : behindBody fields ps base size block = cstr (slice (streamCell (valued fields base s))
      (render ps).length (size - (render ps).length)) := by
    refine congrArg cstr (slice_congr fun j hj _ => streamCell_congr hholds.1.symm hvalued.symm ?_)
    rw [valued_behind hlen hj, hbuf, store_of_ge (by omega)]
  have hmem := List.mem_of_getElem? hx
  rw [htail, ← hentry f hmem]
  unfold pointed entry
  rw [hx']
  by_cases h0 : place ps f = 0
  · rw [if_pos h0, if_pos (lift_eq_zero.mpr h0)]
  · have hplace : place ps f ∈ (found fields (render ps)).2 := hfound ▸ List.mem_map_of_mem hmem
    rw [if_neg h0, if_neg fun h => h0 (lift_eq_zero.mp h),
      streamStr_eq base hholds hsize h0 (Nat.le_of_lt (found_lt hplace h0))]

theorem msgValues_text (htext : ∀ f ∈ fields, f.type = 0)
    (hgiven : ∀ j f, fields[j]? = some f → pointed base (streamSize msg) msg.data j = given f.name)
    (hall : ∀ f ∈ fields, taken given f) :
    msgValues fields base msg = fields.map fun f => (given f.name).join.map .text := by
  refine List.ext_getElem? fun x => ?_
  unfold msgValues
  rw [List.getElem?_map, List.getElem?_map, List.getElem?_zipIdx]
  cases hx : fields[x]? with
  | none => rfl
  | some f =>
    have hmem := List.mem_of_getElem? hx
    obtain ⟨v, hv, -⟩ := taken_iff.mp (hall f hmem)
    have hpointed := (hgiven x f hx).trans hv
    unfold pointed at hpointed
    split_ifs at hpointed
    dsimp only [Option.map_some]
    rw [Nat.zero_add, fieldValue, if_neg (not_not_intro (htext f hmem)), Option.some.inj hpointed, hv]
    rfl

/-- **What becomes of a message with a body.** -/
theorem whole_render (hm : Made fields (render ps).length msg) (hne : fields ≠ [])
    (htext : ∀ f ∈ fields, f.type = 0) (hnames : (fields.map TcpmsgField.name).Nodup)
    (hps : ∀ p ∈ ps, Plain p.1 ∧ Plain p.2) :
    whole fields base msg (render ps) = verdict (fun name =>
      (strings (behindBody fields ps base (streamSize msg) msg.data.buf) ps).lookup name) fields := by
  let s : TcpStream := { msg.data with buf := store msg.data.buf 0 (render ps), off := 0 }
  let given : List UInt8 → Option (Option (List UInt8)) := fun name =>
    (strings (behindBody fields ps base (streamSize msg) msg.data.buf) ps).lookup name
  have hle : (render ps).length ≤ streamSize msg := (Nat.le_add_right _ 4).trans hm.room
  have hgiven : ∀ j f, fields[j]? = some f →
      pointed base (streamSize msg) (valued fields base s) j = given f.name :=
    fun j f hj => pointed_valued (s := s) hnames hps hm.len hm.vl hle rfl hj
  have hloop : parseStringmsg fields base (streamSize msg) s =
      (fields.find? fun f => !taken given f).elim (some (some (valued fields base s)))
        fun f => if given f.name = some none then none else some none := by
    rw [parseStringmsg_eq fun h => hne (List.length_eq_zero_iff.mp h)]
    refine fieldsLoop_text htext fun j f hj => ?_
    rw [Nat.zero_add]
    exact hgiven j f hj
  have hparsed :
      parsed fields base msg (render ps) = (parseStringmsg fields base (streamSize msg) s).map
      fun s => s.map fun s => { msg with data := s } := rfl
  change _ = verdict given fields
  unfold whole verdict
  rw [hparsed, hloop]
  cases hfirst : fields.find? fun f => !taken given f with
  | none =>
    refine congrArg Outcome.handled (@msgValues_text fields given base
      { msg with data := valued fields base s } htext hgiven fun f hf => ?_)
    simpa using List.find?_eq_none.mp hfirst f hf
  | some f =>
    dsimp only [Option.elim_some]
    split_ifs <;> rfl

/-! ### The last value -/

theorem strings_append (tail : Option (List UInt8)) (front : List (List UInt8 × List UInt8))
    (k v : List UInt8) : strings tail (front ++ [(k, v)]) =
      front.map (fun p => (p.1, some p.2)) ++ if v = [] then [] else [(k, tail.map (v ++ ·))] := by
  induction front with
  | nil => rfl
  | cons p front ih =>
    obtain ⟨q, qs, hq⟩ := List.exists_cons_of_ne_nil (List.append_ne_nil_of_right_ne_nil front
      (List.cons_ne_nil (k, v) []))
    rw [hq] at ih
    rw [List.cons_append, hq, strings, ih]
    rfl

theorem lookup_map_some (front : List (List UInt8 × List UInt8)) (name : List UInt8) :
    (front.map fun p => (p.1, some p.2)).lookup name = (front.lookup name).map some := by
  induction front with
  | nil => rfl
  | cons p front ih =>
    rw [List.map_cons, List.lookup_cons, List.lookup_cons]
    cases name == p.1 with
    | true => rfl
    | false => exact ih

theorem lookup_last (k v name : List UInt8) :
    [(k, v)].lookup name = if name = k then some v else none := by
  by_cases h : name = k
  · rw [if_pos h, h, List.lookup_cons_self]
  · rw [if_neg h, lookup_cons_of_ne h]
    rfl

/-- **The string that a field gets**: its value, but for the last value. -/
theorem lookup_strings (tail : Option (List UInt8)) (front : List (List UInt8 × List UInt8))
    (k v name : List UInt8) : (strings tail (front ++ [(k, v)])).lookup name =
      ((front.lookup name).map some).or
        (if v ≠ [] ∧ name = k then some (tail.map (v ++ ·)) else none) := by
  rw [strings_append, List.lookup_append, lookup_map_some]
  congr 1
  by_cases hv : v = []
  · rw [if_pos hv, if_neg fun h => h.1 hv]
    rfl
  · rw [if_neg hv]
    by_cases hk : name = k
    · rw [if_pos ⟨hv, hk⟩, hk, List.lookup_cons_self]
    · rw [if_neg fun h => hk h.2, lookup_cons_of_ne hk]
      rfl

theorem verdict_eq_handled {vs : List (Option Value)} : verdict given fields = .handled vs ↔
    (∀ f ∈ fields, taken given f) ∧ (fields.map fun f => (given f.name).join.map .text) = vs := by
  unfold verdict
  cases hfirst : fields.find? fun f => !taken given f with
  | none =>
    have hall : ∀ f ∈ fields, taken given f := fun f hf => by
      simpa using List.find?_eq_none.mp hfirst f hf
    exact ⟨fun h => ⟨hall, Outcome.handled.inj h⟩, fun h => congrArg Outcome.handled h.2⟩
  | some f =>
    have hnot : ¬ taken given f := by simpa using List.find?_some hfirst
    dsimp only
    refine ⟨fun h => ?_, fun h => absurd (h.1 f (List.mem_of_find?_eq_some hfirst)) hnot⟩
    split_ifs at h

theorem verdict_eq_refused : verdict given fields = .refused ↔
    ∃ f, fields.find? (fun f => !taken given f) = some f ∧ given f.name ≠ some none := by
  unfold verdict
  cases hfirst : fields.find? fun f => !taken given f with
  | none => exact ⟨fun h => (nomatch h), fun ⟨f, hf, _⟩ => (nomatch hf)⟩
  | some f =>
    dsimp only
    split_ifs with hfault
    · exact ⟨fun h => (nomatch h), fun ⟨g, hg, hne⟩ => absurd hfault (Option.some.inj hg ▸ hne)⟩
    · exact ⟨fun _ => ⟨f, rfl, hfault⟩, fun _ => rfl⟩

/-- Where no string runs out of the block, a message is refused for any field that is not right. -/
theorem verdict_eq_refused_of_ends (hends : ∀ f ∈ fields, given f.name ≠ some none) :
    verdict given fields = .refused ↔ ∃ f ∈ fields, ¬ taken given f := by
  refine verdict_eq_refused.trans ⟨fun ⟨f, hf, _⟩ => ?_, fun ⟨f, hf, hnot⟩ => ?_⟩
  · exact ⟨f, List.mem_of_find?_eq_some hf, by simpa using List.find?_some hf⟩
  · cases hfirst : fields.find? fun f => !taken given f with
    | none => exact absurd (List.find?_eq_none.mp hfirst f hf) (by simpa using hnot)
    | some g => exact ⟨g, rfl, hends g (List.mem_of_find?_eq_some hfirst)⟩

theorem lookup_pairs (front : List (List UInt8 × List UInt8)) (k v name : List UInt8) :
    (front ++ [(k, v)]).lookup name =
      (front.lookup name).or (if name = k then some v else none) := by
  rw [List.lookup_append, lookup_last]

/-- Fields that get their values. -/
theorem verdict_exact (hgiven : ∀ f ∈ fields, given f.name = (ps.lookup f.name).map some) :
    verdict given fields = expected fields ps := by
  have htaken : ∀ f ∈ fields, (taken given f ↔ right ps f) := by
    intro f hf
    unfold taken right
    rw [hgiven f hf]
    cases ps.lookup f.name <;> rfl
  unfold expected
  by_cases hall : Complete fields ps
  · rw [if_pos hall]
    refine verdict_eq_handled.mpr ⟨fun f hf => (htaken f hf).mpr (hall f hf),
      List.map_congr_left fun f hf => ?_⟩
    rw [hgiven f hf]
    cases ps.lookup f.name <;> rfl
  · rw [if_neg hall]
    unfold Complete at hall
    push Not at hall
    obtain ⟨f, hf, hnot⟩ := hall
    refine (verdict_eq_refused_of_ends fun f hf => ?_).mpr ⟨f, hf, fun h => hnot ((htaken f hf).mp h)⟩
    rw [hgiven f hf]
    cases ps.lookup f.name <;> simp

/-- **A body that has each field** is handled with its values, if its last value is not empty and
nothing is behind the body. -/
theorem verdict_complete (hkeys : ((front ++ [(k, v)]).map Prod.fst).Nodup)
    (hknown : k ∈ fields.map TcpmsgField.name) (hall : Complete fields (front ++ [(k, v)])) :
    verdict (fun name => (strings tail (front ++ [(k, v)])).lookup name) fields =
      expected fields (front ++ [(k, v)]) ↔ v ≠ [] ∧ tail = some [] := by
  constructor
  · intro h
    obtain ⟨f, hf, rfl⟩ := List.mem_map.mp hknown
    have hfront : front.lookup f.name = none := by
      rw [List.map_append] at hkeys
      refine List.lookup_eq_none_iff.mpr fun p hp => bne_iff_ne.mpr fun he => ?_
      exact (List.nodup_append.mp hkeys).2.2 p.1 (List.mem_map_of_mem hp) f.name
        (List.mem_singleton_self f.name) he.symm
    unfold expected at h
    rw [if_pos hall] at h
    obtain ⟨htaken, hvalues⟩ := verdict_eq_handled.mp h
    obtain ⟨w, hw, -⟩ := taken_iff.mp (htaken f hf)
    have hvalue := List.map_inj_left.mp hvalues f hf
    rw [hw, lookup_pairs, hfront, if_pos rfl] at hvalue
    rw [lookup_strings, hfront, Option.map_none, Option.none_or] at hw
    split_ifs at hw with hne
    obtain ⟨l, rfl, rfl⟩ := Option.map_eq_some_iff.mp (Option.some.inj hw)
    have happ : v ++ l = v := by simpa using hvalue
    exact ⟨hne.1, congrArg some (List.append_right_eq_self.mp happ)⟩
  · rintro ⟨hne, rfl⟩
    refine verdict_exact fun f _ => ?_
    rw [lookup_strings, lookup_pairs]
    cases front.lookup f.name with
    | some w => rfl
    | none =>
      by_cases hk : f.name = k
      · rw [if_pos ⟨hne, hk⟩, if_pos hk]
        simp
      · rw [if_neg fun h => hk h.2, if_neg hk]
        rfl

/-- A last value that does not matter. -/
theorem verdict_front (hlast : v = [] ∨ k ∈ front.map Prod.fst)
    (hnot : ¬ Complete fields (front ++ [(k, v)])) :
    verdict (fun name => (strings tail (front ++ [(k, v)])).lookup name) fields = .refused := by
  have hgiven : ∀ name, (strings tail (front ++ [(k, v)])).lookup name =
      (front.lookup name).map some := by
    intro name
    rw [lookup_strings]
    cases hname : front.lookup name with
    | some w => rfl
    | none =>
      refine if_neg fun h => ?_
      obtain rfl | hk := hlast
      · exact h.1 rfl
      · obtain ⟨p, hp, rfl⟩ := List.mem_map.mp hk
        exact bne_iff_ne.mp (List.lookup_eq_none_iff.mp hname p hp) h.2
  unfold Complete at hnot
  push Not at hnot
  obtain ⟨f, hf, hnot⟩ := hnot
  refine (verdict_eq_refused_of_ends fun f _ => ?_).mpr ⟨f, hf, fun ht => hnot ?_⟩
  · rw [hgiven]
    cases front.lookup f.name <;> simp
  · obtain ⟨w, hw, hin⟩ := taken_iff.mp ht
    rw [hgiven] at hw
    obtain ⟨w', hw', he⟩ := Option.map_eq_some_iff.mp hw
    cases he
    exact right_iff_lookup.mpr ⟨w, by rw [lookup_pairs, hw']; rfl, hin⟩

/-- The strings where the last value matters. -/
theorem given_last (hne : v ≠ []) (hk : k ∉ front.map Prod.fst) (name : List UInt8) :
    (strings tail (front ++ [(k, v)])).lookup name =
      if name = k then some (tail.map (v ++ ·)) else ((front ++ [(k, v)]).lookup name).map some := by
  rw [lookup_strings, lookup_pairs]
  by_cases hname : name = k
  · subst hname
    have hfront : front.lookup name = none :=
      List.lookup_eq_none_iff.mpr fun p hp => bne_iff_ne.mpr fun he =>
        hk (he ▸ List.mem_map_of_mem hp)
    rw [hfront, if_pos ⟨hne, rfl⟩, if_pos rfl]
    rfl
  · rw [if_neg fun h => hname h.2, if_neg hname, if_neg hname, Option.or_none, Option.or_none]

theorem taken_last (hne : v ≠ []) (hk : k ∉ front.map Prod.fst) (f : TcpmsgField) :
    taken (fun name => (strings tail (front ++ [(k, v)])).lookup name) f =
      if f.name = k then (tail.map (v ++ ·)).any (inRange f) else right (front ++ [(k, v)]) f := by
  unfold taken right
  dsimp only
  rw [given_last hne hk]
  split_ifs
  · rfl
  · cases (front ++ [(k, v)]).lookup f.name <;> rfl

/-- A string behind the body that does not end. -/
theorem verdict_endless (hne : v ≠ []) (hk : k ∉ front.map Prod.fst) :
    verdict (fun name => (strings none (front ++ [(k, v)])).lookup name) fields = .refused ↔
      ∃ f ∈ fields.takeWhile fun f => f.name ≠ k, ¬ right (front ++ [(k, v)]) f := by
  rw [verdict_eq_refused]
  induction fields with
  | nil => exact ⟨fun ⟨f, hf, _⟩ => (nomatch hf), fun ⟨f, hf, _⟩ => (nomatch hf)⟩
  | cons f fs ih =>
    have htaken := @taken_last front k v none hne hk f
    have hgiven := @given_last front k v none hne hk f.name
    by_cases hname : f.name = k
    · -- the string of this field runs out of the block
      rw [if_pos hname] at htaken hgiven
      rw [List.find?_cons_of_pos (by rw [htaken]; rfl),
        List.takeWhile_cons_of_neg (by simpa using hname)]
      refine ⟨fun ⟨g, hg, hends⟩ => ?_, fun ⟨g, hg, _⟩ => (nomatch hg)⟩
      cases hg
      exact absurd hgiven hends
    rw [if_neg hname] at htaken hgiven
    rw [List.takeWhile_cons_of_pos (by simpa using hname)]
    by_cases hright : right (front ++ [(k, v)]) f
    · rw [List.find?_cons_of_neg (by rw [htaken, hright]; decide), ih]
      refine ⟨fun ⟨g, hg, hnot⟩ => ⟨g, List.mem_cons_of_mem _ hg, hnot⟩, fun ⟨g, hg, hnot⟩ => ?_⟩
      obtain rfl | hg := List.mem_cons.mp hg
      · exact absurd hright hnot
      · exact ⟨g, hg, hnot⟩
    · rw [List.find?_cons_of_pos (by rw [htaken]; simpa using hright)]
      refine ⟨fun _ => ⟨f, List.mem_cons_self, hright⟩, fun _ => ⟨f, rfl, ?_⟩⟩
      rw [hgiven]
      cases (front ++ [(k, v)]).lookup f.name <;> simp

/-- **When a body is refused that is to be refused.** -/
theorem verdict_refused_iff (hnot : ¬ Complete fields ps) :
    verdict (fun name => (strings tail ps).lookup name) fields = .refused ↔
      StillRefused tail fields ps := by
  obtain rfl | ⟨front, ⟨k, v⟩, rfl⟩ := List.eq_nil_or_concat' ps
  · refine iff_of_true ?_ fun p hp => (nomatch hp)
    refine (verdict_exact fun f _ => ?_).trans (if_neg hnot)
    rfl
  have hstill : StillRefused tail fields (front ++ [(k, v)]) ↔
      v = [] ∨ k ∈ front.map Prod.fst ∨
        (∃ f ∈ fields.takeWhile fun f => f.name ≠ k, ¬ right (front ++ [(k, v)]) f) ∨
        ∃ l ∈ tail, ∃ f ∈ fields,
          ¬ if f.name = k then inRange f (v ++ l) else right (front ++ [(k, v)]) f := by
    unfold StillRefused
    rw [List.getLast?_concat, List.dropLast_concat]
    exact ⟨fun h => h (k, v) rfl, fun h p hp => by cases hp; exact h⟩
  rw [hstill]
  by_cases hlast : v = [] ∨ k ∈ front.map Prod.fst
  · exact iff_of_true (verdict_front hlast hnot) (hlast.imp_right Or.inl)
  obtain ⟨hne, hk⟩ := not_or.mp hlast
  cases tail with
  | none =>
    refine (verdict_endless hne hk).trans ⟨fun h => Or.inr (Or.inr (Or.inl h)), fun h => ?_⟩
    obtain h | h | h | ⟨l, hl, -⟩ := h
    · exact absurd h hne
    · exact absurd h hk
    · exact h
    · cases hl
  | some l =>
    have hends : ∀ f ∈ fields,
        (strings (some l) (front ++ [(k, v)])).lookup f.name ≠ some none := by
      intro f _
      rw [given_last hne hk]
      split_ifs
      · simp
      · cases (front ++ [(k, v)]).lookup f.name <;> simp
    rw [verdict_eq_refused_of_ends hends]
    refine ⟨fun ⟨f, hf, hnot⟩ => ?_, fun h => ?_⟩
    · refine Or.inr (Or.inr (Or.inr ⟨l, rfl, f, hf, ?_⟩))
      rw [taken_last hne hk] at hnot
      split_ifs at hnot ⊢ <;> exact hnot
    · obtain h | h | ⟨f, hf, hnot⟩ | ⟨w, hw, f, hf, hnot⟩ := h
      · exact absurd h hne
      · exact absurd h hk
      · have hname : f.name ≠ k := by simpa using List.mem_takeWhile_imp hf
        refine ⟨f, (List.takeWhile_subset _) hf, ?_⟩
        rw [taken_last hne hk, if_neg hname]
        exact hnot
      · cases hw
        refine ⟨f, hf, ?_⟩
        rw [taken_last hne hk]
        split_ifs at hnot ⊢ <;> exact hnot

end ChatShow.Antlib.StringFields
