import ChatShow.Antlib.Md5Stream
import ChatShow.CommBase.MessageManager

/-! # The class `MD5`

`Digest` pads the message in the buffer that it has been taken in, and gives back the state and the count
but not the buffer. Where the padding is of two blocks, the bytes that waited are lost: what is taken behind
them is then no longer taken behind the message. -/

namespace ChatShow.CommBase.Md5

open ChatShow.Antlib.Md5 (State MD5_CTX PADDING md5Encode md5Transform md5Init md5Update md5Final md5Block
  Taken taken_init digest B16MD5)
open ChatShow.Lib.BlockHash ChatShow.Lib.Cells

/-- An object. `Transform` is `MD5Transform`, word for word. -/
structure MD5 where
  state : State
  count : UInt32 × UInt32
  buffer : ℕ → UInt8 := fun _ => 0
  digest : List UInt8 := []
  finished : Bool

namespace MD5

def reset (o : MD5) : MD5 :=
  { o with finished := false, count := (0, 0), state := ⟨0x67452301, 0xefcdab89, 0x98badcfe, 0x10325476⟩ }

def index (o : MD5) : ℕ := ((o.count.1 >>> 3) &&& 0x3f).toNat

/-- `Update`. -/
def update (o : MD5) (input : List UInt8) : MD5 :=
  let index := o.index
  let length := UInt32.ofNat input.length
  let count0 := o.count.1 + length <<< 3
  let count1 := (if count0 < length <<< 3 then o.count.2 + 1 else o.count.2) + length >>> 29
  let partLen := 64 - index
  if partLen ≤ input.length then
    let buffer := store o.buffer index (input.take partLen)
    let blocks := (input.length - partLen) / 64
    let state := (List.range blocks).foldl
      (fun state j => md5Transform state (cells (input.drop (partLen + 64 * j))))
      (md5Transform o.state buffer)
    { o with finished := false, count := (count0, count1), state := state
             buffer := store buffer 0 (input.drop (partLen + 64 * blocks)) }
  else { o with finished := false, count := (count0, count1), buffer := store o.buffer index input }

/-- `Final`. -/
def final (o : MD5) : MD5 :=
  let bits := md5Encode [o.count.1, o.count.2]
  let index := o.index
  let padLen := if index < 56 then 56 - index else 120 - index
  let o' := (o.update (PADDING.take padLen)).update bits
  { o' with digest := md5Encode [o'.state.a, o'.state.b, o'.state.c, o'.state.d]
            state := o.state, count := o.count }

/-- `Digest`: what is returned, and the object. -/
def digests (o : MD5) : List UInt8 × MD5 :=
  if o.finished then (o.digest, o)
  else
    let o := ({ o with finished := true } : MD5).final
    (o.digest, o)

/-- The object without a message. -/
def empty : MD5 :=
  reset { state := ⟨0, 0, 0, 0⟩, count := (0, 0), finished := false }

/-- What `MD5Update` has of it. -/
def context (o : MD5) : MD5_CTX := { count := o.count, state := o.state, buffer := o.buffer }

theorem context_update (o : MD5) (input : List UInt8) :
    (o.update input).context = md5Update o.context input := by
  unfold update md5Update context
  dsimp only
  split_ifs <;> first | rfl | contradiction

theorem finished_update (o : MD5) (input : List UInt8) : (o.update input).finished = false := by
  unfold update
  dsimp only
  split_ifs <;> rfl

end MD5

/-! ### The calls -/

inductive Call
  | update (input : List UInt8)
  | digest
  | reset

/-- A call: what it returns, and the object. -/
def MD5.call (o : MD5) : Call → Option (List UInt8) × MD5
  | .update input => (none, o.update input)
  | .digest => (some o.digests.1, o.digests.2)
  | .reset => (none, o.reset)

/-- What the calls of `Digest` return, one behind the other. -/
def MD5.digestsOf (o : MD5) : List Call → List (List UInt8)
  | [] => []
  | a :: l => (o.call a).1.toList ++ (o.call a).2.digestsOf l

/-- The message after a call. There is none where `Digest` has lost bytes of it. -/
def after (m : Option (List UInt8)) : Call → Option (List UInt8)
  | .update input => m.map (· ++ input)
  | .digest => m.filter fun m => m.length % 64 < 56
  | .reset => some []

/-- The digests of the messages so far, where there is one. -/
def expected (m : Option (List UInt8)) : List Call → List (Option (List UInt8))
  | [] => []
  | .digest :: l => m.map digest :: expected (after m .digest) l
  | a :: l => expected (after m a) l

/-- The object has taken the message. -/
def Has (o : MD5) (m : List UInt8) : Prop := o.finished = false ∧ Taken o.context m

variable {o : MD5} {m : List UInt8}

theorem has_reset (o : MD5) : Has o.reset [] :=
  ⟨rfl, holds_nil (by decide), by show (0 : UInt32).toNat + 2 ^ 32 * (0 : UInt32).toNat = _; decide⟩

theorem Has.update (h : Has o m) {input : List UInt8} (hlen : input.length < 2 ^ 32) :
    Has (o.update input) (m ++ input) := by
  refine ⟨MD5.finished_update o input, ?_⟩
  rw [MD5.context_update]
  exact h.2.update hlen

theorem state_update (o : MD5) (input input' : List UInt8) :
    ((o.update input).update input').state = (md5Update (md5Update o.context input) input').state := by
  rw [← MD5.context_update, ← MD5.context_update]
  rfl

theorem digest_final (h : Taken o.context m) : o.final.digest = digest m := by
  rw [← h.final]
  unfold MD5.final md5Final
  dsimp only
  rw [state_update]
  rfl

/-- The bytes that wait are still there where the padding is of one block. -/
theorem slice_final (h : Taken o.context m) (hlt : m.length % 64 < 56) :
    slice o.final.buffer 0 (m.length % 64) = slice o.buffer 0 (m.length % 64) := by
  have hindex : o.index = m.length % 64 := h.index
  have hpad : (PADDING.take (56 - m.length % 64)).length = 56 - m.length % 64 := by
    rw [List.length_take]
    exact Nat.min_eq_left ((Nat.sub_le ..).trans (by decide))
  have hbits : (md5Encode [o.count.1, o.count.2]).length = 8 := by
    rw [ChatShow.Antlib.Md5.length_md5Encode]
    rfl
  obtain ⟨o₁, ho₁⟩ : ∃ o₁, o.update (PADDING.take (56 - m.length % 64)) = o₁ := ⟨_, rfl⟩
  have htaken : Taken o₁.context (m ++ PADDING.take (56 - m.length % 64)) := by
    rw [← ho₁, MD5.context_update]
    exact h.update (by rw [hpad]; omega)
  have hbuffer : o₁.buffer = store o.buffer (m.length % 64) (PADDING.take (56 - m.length % 64)) := by
    rw [← ho₁]
    unfold MD5.update
    dsimp only
    rw [hindex, if_neg (by rw [hpad]; omega)]
  have hindex₁ : o₁.index = 56 := by
    have hi : o₁.index = _ := htaken.index
    rw [hi, List.length_append, hpad]
    omega
  have hfinal : o.final.buffer = (o₁.update (md5Encode [o.count.1, o.count.2])).buffer := by
    unfold MD5.final
    dsimp only
    rw [hindex, if_pos hlt, ho₁]
  have hlast : (o₁.update (md5Encode [o.count.1, o.count.2])).buffer =
      store (store o₁.buffer 56 (md5Encode [o.count.1, o.count.2])) 0 [] := by
    unfold MD5.update
    dsimp only
    rw [hindex₁, if_pos (by rw [hbits]), hbits, List.take_of_length_le hbits.le,
      List.drop_of_length_le hbits.le]
  rw [hfinal, hlast, slice_store_of_disjoint (Or.inr (by simp)),
    slice_store_of_disjoint (Or.inl (by omega)), hbuffer, slice_store_of_disjoint (Or.inl (by omega))]

/-- **`Digest` gives the digest of the message**, and leaves it as it was where no byte is lost. -/
theorem Has.digests (h : Has o m) : o.digests.1 = digest m ∧
    (m.length % 64 < 56 → Has o.digests.2 m) := by
  obtain ⟨hfin, htaken⟩ := h
  have hdig : o.digests = ((({ o with finished := true } : MD5).final).digest,
      ({ o with finished := true } : MD5).final) := by
    unfold MD5.digests
    rw [hfin]
    rfl
  have htaken' : Taken ({ o with finished := true } : MD5).context m := htaken
  rw [hdig]
  refine ⟨digest_final htaken', fun hlt => ⟨MD5.finished_update _ _, ?_⟩⟩
  have hslice := slice_final htaken' hlt
  refine ⟨⟨htaken.holds.state, ?_⟩, htaken.count⟩
  exact hslice.trans htaken.holds.waits

/-- What holds of the object where there is a message. -/
theorem has_call {m : Option (List UInt8)} {a : Call} (h : ∀ m', m = some m' → Has o m')
    (hlen : ∀ input, a = .update input → input.length < 2 ^ 32) :
    ∀ m', after m a = some m' → Has (o.call a).2 m' := by
  intro m' hm'
  cases a with
  | update input =>
    obtain ⟨m₀, rfl, rfl⟩ := Option.map_eq_some_iff.mp hm'
    exact (h m₀ rfl).update (hlen input rfl)
  | digest =>
    obtain ⟨hm, hlt⟩ := Option.filter_eq_some_iff.mp hm'
    exact (h m' hm).digests.2 (by simpa using hlt)
  | reset =>
    cases hm'
    exact has_reset o

theorem digestsOf_of_has {l : List Call} {m : Option (List UInt8)} (h : ∀ m', m = some m' → Has o m')
    (hlen : ∀ input, .update input ∈ l → input.length < 2 ^ 32) :
    List.Forall₂ (fun want got => ∀ d, want = some d → got = d) (expected m l) (o.digestsOf l) := by
  induction l generalizing o m with
  | nil => exact .nil
  | cons a l ih =>
    have hnext := ih (has_call h fun input ha => hlen input (ha ▸ List.mem_cons_self))
      fun input hi => hlen input (List.mem_cons_of_mem _ hi)
    cases a with
    | update input => exact hnext
    | reset => exact hnext
    | digest =>
      refine .cons (fun d hd => ?_) hnext
      obtain ⟨m₀, rfl, rfl⟩ := Option.map_eq_some_iff.mp hd
      exact (h m₀ rfl).digests.1

/-- A message in two parts, with a digest behind each. -/
def twoDigests : List Call := [.update [1, 2, 3], .digest, .update [4], .digest, .reset, .digest]

/-- Two calls one behind the other do not return the same where bytes are lost. -/
example : let d := MD5.empty.digestsOf [.update (List.replicate 56 1), .digest, .digest]
    d[0]? ≠ d[1]? := by decide +kernel

/-- The digest that is behind a message. -/
def md5 : MessageManager.MD5 where
  digest l := (MD5.empty.update l).digests.1
  length_digest l := by
    unfold MD5.digests
    rw [MD5.finished_update]
    exact ChatShow.Antlib.Md5.length_md5Encode _

end ChatShow.CommBase.Md5
