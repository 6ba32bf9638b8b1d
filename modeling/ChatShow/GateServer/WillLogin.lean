import ChatShow.CSLoginService.LoginNames
import ChatShow.Lib.Regions

/-! # What the handler of `WILLLOGIN` touches

The handler of `MSG_REQ_LS2GT_WILLLOGIN` with every read checked to be of the payload or of `namebuff` and
every write to be of `namebuff` or `buf`. It asks neither how long the payload is nor whether the name in it
fits, so that it stays in its buffers for the payloads for which all of that happens to be so
(`willLogin_inBounds_iff`), and there it is the handler without the checks (`willLoginChecked_eq`). -/

namespace ChatShow.GateServer.WillLogin

open ChatShow.Lib.Bytes ChatShow.Lib.Cells ChatShow.Lib.CStrings ChatShow.Lib.Regions
open ChatShow.CSLoginService.UserLogin ChatShow.CSLoginService.LoginNames

variable {g : GateInfo} {content : List UInt8}

/-! ### The handler with checks -/

/-- The size that `memcpy` gets for a length that has been an `int`. -/
def memcpySize (namelen : ℕ) : ℕ := if namelen < 2 ^ 31 then namelen else namelen + (2 ^ 64 - 2 ^ 32)

/-- What is written into `buf` in front of the name. -/
def replyParts (g : GateInfo) (namelen : ℕ) : List (List UInt8) :=
  [leBytes 4 (if g.added then 0 else 1), leBytes 4 g.port.toNat, leBytes 2 g.localID.toNat,
    leBytes 4 g.ip.length, g.ip, leBytes 4 namelen]

/-- The handler from the copy of the name on. -/
def replyChecked (g : GateInfo) (content : List UInt8) (namelen : ℕ) : Option (List UInt8) := do
  let payload : Region := ⟨0, content.length⟩
  let namebuffs : Region := ⟨0, namebuffSize⟩
  let bufs : Region := ⟨0, 128⟩
  let name ← payload.read (cells content) 12 (memcpySize namelen)
  let namebuff ← namebuffs.write (fun _ => 0) 0 name
  let (buf, off) ← bufs.writeAll (fun _ => 0) 0 (replyParts g namelen)
  let name ← namebuffs.read namebuff 0 (memcpySize namelen)
  let (buf, off) ← bufs.writeAll buf off [name]
  some (slice buf 0 off)

/-- The handler, where `none` is an access outside of the payload, `namebuff[33]` and `buf[128]`. -/
def willLoginChecked (g : GateInfo) (content : List UInt8) : Option (List UInt8) := do
  let payload : Region := ⟨0, content.length⟩
  let _charid ← payload.read (cells content) 0 8
  let namelen ← payload.read (cells content) 8 4
  replyChecked g content (ofLe namelen.reverse)

/-! ### The lengths in a payload -/

/-- The length of the name that a payload has. -/
def namelenOf (content : List UInt8) : ℕ := ofLe ((content.drop 8).take 4).reverse

def nameOf (content : List UInt8) : List UInt8 := (content.drop 12).take (namelenOf content)

/-- The payload has its name, and the name has room in `namebuff` and with the address in `buf`. -/
def Fits (g : GateInfo) (content : List UInt8) : Prop :=
  12 + namelenOf content ≤ content.length ∧ namelenOf content ≤ namebuffSize ∧
    18 + g.ip.length + namelenOf content ≤ 128

instance (g : GateInfo) (content : List UInt8) : Decidable (Fits g content) :=
  inferInstanceAs (Decidable (_ ∧ _))

theorem length_replyParts (g : GateInfo) (namelen : ℕ) :
    (replyParts g namelen).flatten.length = 18 + g.ip.length := by
  simp only [replyParts, List.flatten_cons, List.flatten_nil, List.length_append, length_leBytes,
    List.length_nil]
  omega

/-- A length that is negative as an `int` is too large for `namebuff` in any case. -/
theorem memcpySize_le_iff (n : ℕ) : memcpySize n ≤ namebuffSize ↔ n ≤ namebuffSize := by
  unfold memcpySize namebuffSize
  split_ifs <;> omega

theorem memcpySize_eq {n : ℕ} (h : n ≤ namebuffSize) : memcpySize n = n := by
  unfold namebuffSize at h
  exact if_pos (by omega)

/-! ### The checks -/

theorem read_payload {off n : ℕ} (h : off + n ≤ content.length) :
    Region.read ⟨0, content.length⟩ (cells content) off n = some ((content.drop off).take n) := by
  rw [Region.read_of_has (Region.has_zero_iff.mpr h), slice_cells h]

theorem read_payload_none {off n : ℕ} (h : ¬ off + n ≤ content.length) :
    Region.read ⟨0, content.length⟩ (cells content) off n = none :=
  Region.read_none fun hhas => h (Region.has_zero_iff.mp hhas)

theorem length_nameOf (h : 12 + namelenOf content ≤ content.length) :
    (nameOf content).length = namelenOf content := by
  unfold nameOf
  rw [List.length_take, List.length_drop]
  omega

/-- The payload is read up to the name. -/
theorem willLoginChecked_head (h : 12 ≤ content.length) :
    willLoginChecked g content = replyChecked g content (namelenOf content) := by
  unfold willLoginChecked
  dsimp only
  rw [read_payload (by omega), Option.bind_eq_bind, Option.bind_some, read_payload (by omega),
    Option.bind_some]
  rfl

/-- What comes of a payload that fits. -/
theorem willLoginChecked_of_fits (h : Fits g content) :
    willLoginChecked g content = some (answer g (nameOf content)) := by
  obtain ⟨hname, hbuff, hbuf⟩ := h
  have hlength := length_nameOf hname
  have hparts := length_replyParts g (namelenOf content)
  have hwrite : Region.Has ⟨0, namebuffSize⟩ 0 (nameOf content).length :=
    Region.has_zero_iff.mpr (by omega)
  have hall : Region.Has ⟨0, 128⟩ 0 (replyParts g (namelenOf content)).flatten.length :=
    Region.has_zero_iff.mpr (by omega)
  have hread : Region.Has ⟨0, namebuffSize⟩ 0 (namelenOf content) := Region.has_zero_iff.mpr (by omega)
  have hlast : Region.Has ⟨0, 128⟩ (0 + (replyParts g (namelenOf content)).flatten.length)
      [nameOf content].flatten.length := by
    rw [Region.has_zero_iff, List.flatten_singleton]
    omega
  have hback : slice (store (fun _ => (0 : UInt8)) 0 (nameOf content)) 0 (namelenOf content) =
      nameOf content := by
    rw [← hlength, slice_store_same]
  -- All that is written is the parts and the name.
  have hanswer : (replyParts g (namelenOf content)).flatten ++ [nameOf content].flatten =
      answer g (nameOf content) := by
    unfold replyParts answer
    rw [hlength]
    simp only [List.flatten_cons, List.flatten_nil, List.append_assoc, List.append_nil]
  have hend : 0 + (replyParts g (namelenOf content)).flatten.length + [nameOf content].flatten.length =
      (answer g (nameOf content)).length := by
    rw [← hanswer, List.length_append]
    omega
  rw [willLoginChecked_head (by omega)]
  unfold replyChecked
  simp only [Option.bind_eq_bind]
  rw [memcpySize_eq hbuff, read_payload hname, Option.bind_some, ← nameOf, Region.write_of_has hwrite,
    Option.bind_some, Region.writeAll_of_has hall, Option.bind_some]
  dsimp only
  rw [Region.read_of_has hread, Option.bind_some, hback, Region.writeAll_of_has hlast, Option.bind_some]
  dsimp only
  rw [store_store_append, hanswer, hend, slice_store_same]

/-- There the checks change nothing. -/
theorem willLoginChecked_eq (h : Fits g content) : willLoginChecked g content = willLogin g content := by
  rw [willLoginChecked_of_fits h]
  obtain ⟨hname, hbuff, hbuf⟩ := h
  have hlength := length_nameOf hname
  obtain ⟨buf, hcopy⟩ : ∃ buf, memcpy namebuffSize (nameOf content) = some buf := by
    unfold memcpy
    rw [if_pos (by omega)]
    exact ⟨_, rfl⟩
  have htake := take_memcpy hcopy
  rw [hlength] at htake
  have hanswer : leBytes 4 (if g.added then 0 else 1) ++ leBytes 4 g.port.toNat ++ leBytes 2 g.localID.toNat ++
      leBytes 4 g.ip.length ++ g.ip ++ leBytes 4 (namelenOf content) ++ nameOf content =
      answer g (nameOf content) := by
    unfold answer
    rw [hlength]
    simp only [List.append_assoc]
  have hnamelen : ofLe ((content.drop 8).take 4).reverse = namelenOf content := rfl
  unfold willLogin
  simp only [hnamelen]
  rw [← nameOf, hcopy, Option.bind_eq_bind, Option.bind_some, htake, hanswer, if_pos (by rw [length_answer]; omega)]

/-- A payload that does not fit comes to an access outside. -/
theorem willLoginChecked_none (h : ¬ Fits g content) : willLoginChecked g content = none := by
  by_cases hhead : 12 ≤ content.length
  swap
  · unfold willLoginChecked
    simp only [Option.bind_eq_bind]
    by_cases hcharid : 8 ≤ content.length
    · rw [read_payload (by omega), Option.bind_some, read_payload_none (by omega)]
      rfl
    · rw [read_payload_none (by omega)]
      rfl
  rw [willLoginChecked_head hhead]
  unfold replyChecked
  simp only [Option.bind_eq_bind]
  by_cases hname : 12 + memcpySize (namelenOf content) ≤ content.length
  swap
  · rw [read_payload_none hname]
    rfl
  have hlength : ((content.drop 12).take (memcpySize (namelenOf content))).length =
      memcpySize (namelenOf content) := by
    rw [List.length_take, List.length_drop]
    omega
  rw [read_payload hname, Option.bind_some]
  by_cases hbuff : memcpySize (namelenOf content) ≤ namebuffSize
  swap
  · rw [Region.write_none fun hhas => hbuff ?_]
    · rfl
    · have hle := Region.has_zero_iff.mp hhas
      omega
  have hbuff' := (memcpySize_le_iff _).mp hbuff
  rw [memcpySize_eq hbuff'] at hname hlength ⊢
  have hwrite : Region.Has ⟨0, namebuffSize⟩ 0 ((content.drop 12).take (namelenOf content)).length :=
    Region.has_zero_iff.mpr (by omega)
  have hread : Region.Has ⟨0, namebuffSize⟩ 0 (namelenOf content) := Region.has_zero_iff.mpr (by omega)
  rw [Region.write_of_has hwrite, Option.bind_some]
  have hparts := length_replyParts g (namelenOf content)
  have hfull : ¬ 18 + g.ip.length + namelenOf content ≤ 128 := fun hbuf => h ⟨hname, hbuff', hbuf⟩
  by_cases hall : Region.Has ⟨0, 128⟩ 0 (replyParts g (namelenOf content)).flatten.length
  swap
  · rw [Region.writeAll_none (Region.has_zero_iff.mpr (Nat.zero_le _)) hall]
    rfl
  rw [Region.writeAll_of_has hall, Option.bind_some]
  dsimp only
  rw [Region.read_of_has hread, Option.bind_some]
  -- The name is what there is no room for.
  have hroom := Region.has_zero_iff.mp hall
  rw [Region.writeAll_none (Region.has_zero_iff.mpr (by omega)) fun hhas => hfull ?_]
  · rfl
  · have hlast := Region.has_zero_iff.mp hhas
    rw [List.flatten_singleton, length_slice] at hlast
    omega

/-- **For which payloads the handler stays in its buffers.** -/
theorem willLogin_inBounds_iff (g : GateInfo) (content : List UInt8) :
    (willLoginChecked g content).isSome = true ↔ Fits g content := by
  by_cases h : Fits g content
  · rw [willLoginChecked_of_fits h]
    exact iff_of_true rfl h
  · rw [willLoginChecked_none h]
    exact iff_of_false Bool.false_ne_true h

/-- A name of 40 bytes, which `namebuff` does not hold. -/
theorem not_willLogin_inBounds :
    (willLoginChecked { ip := [49, 46, 49, 46, 49, 46, 49], ip_nul := by decide }
      (callContent 1 (List.replicate 40 97))).isSome = false := by
  decide

end ChatShow.GateServer.WillLogin
