import ChatShow.GameServer.SaveRouting

/-! # Packed character ids

`CREATE_CHARID_GS` puts the id of a server above the number of a player, `GET_SERVER_CHARID` and
`GET_PLAYER_CHARID` take them out again. The shift to the right is that of a signed number: what it
brings in is masked off for the server, and not for the player. So a number comes back where its
bit 47 is not set (`packed_iff`). -/

namespace ChatShow.GameServer.CharIds

open ChatShow.Dependence.CharDefine ChatShow.GameServer.SaveRouting

/-- The id of a server has 16 bits. -/
def ServerId (x : Int64) : Prop := 0 ≤ x ∧ x < 0x10000

instance (x : Int64) : Decidable (ServerId x) := inferInstanceAs (Decidable (_ ∧ _))

/-- The number of a player has 48 bits. -/
def Counter (t : Int64) : Prop := 0 ≤ t ∧ t < 0x1000000000000

instance (t : Int64) : Decidable (Counter t) := inferInstanceAs (Decidable (_ ∧ _))

/-- Both are taken out of the character id as they were, and it is that of no others. -/
structure Packed (x t : Int64) : Prop where
  server : getServerCharid (createCharidGS x t) = x
  player : getPlayerCharid (createCharidGS x t) = t
  unique : ∀ x' t', ServerId x' → Counter t' → createCharidGS x' t' = createCharidGS x t →
    x' = x ∧ t' = t

/-! ### Bits -/

variable {x t x' t' : BitVec 64} {i k : ℕ}

theorem getLsbD_of_lt (h : x.toNat < 2 ^ k) (hi : k ≤ i) : x.getLsbD i = false :=
  Nat.testBit_lt_two_pow (h.trans_le (Nat.pow_le_pow_right Nat.two_pos hi))

theorem getLsbD_mask (i : ℕ) : (0xffff : BitVec 64).getLsbD i = decide (i < 16) :=
  Nat.testBit_two_pow_sub_one 16 i

theorem getLsbD_low (x t : BitVec 64) (hi : i < 48) : (x <<< 48 ||| t).getLsbD i = t.getLsbD i := by
  rw [BitVec.getLsbD_or, BitVec.getLsbD_shiftLeft, decide_eq_true hi, Bool.not_true, Bool.and_false,
    Bool.false_and, Bool.false_or]

theorem getLsbD_high (x : BitVec 64) (ht : t.toNat < 2 ^ 48) (hi : i < 16) :
    (x <<< 48 ||| t).getLsbD (48 + i) = x.getLsbD i := by
  rw [BitVec.getLsbD_or, BitVec.getLsbD_shiftLeft, getLsbD_of_lt ht (Nat.le_add_right 48 i),
    decide_eq_true (show 48 + i < 64 by omega), decide_eq_false (show ¬ 48 + i < 48 by omega),
    Nat.add_sub_cancel_left, Bool.or_false]
  rfl

/-- **The server is taken out.** -/
theorem server_bits (hx : x.toNat < 2 ^ 16) (ht : t.toNat < 2 ^ 48) :
    (x <<< 48 ||| t).sshiftRight 48 &&& 0xffff = x := by
  refine BitVec.eq_of_getLsbD_eq fun i hi => ?_
  rw [BitVec.getLsbD_and, getLsbD_mask]
  by_cases h : i < 16
  · rw [BitVec.getLsbD_sshiftRight, decide_eq_false (Nat.not_le.mpr hi), if_pos (by omega),
      getLsbD_high x ht h, decide_eq_true h, Bool.and_true]
    rfl
  · rw [decide_eq_false h, Bool.and_false, getLsbD_of_lt hx (Nat.not_lt.mp h)]

/-- The bits that are taken out for the player: those above bit 47 are as that is. -/
theorem getLsbD_player (x t : BitVec 64) (hi : i < 64) :
    (((x <<< 48 ||| t) <<< 16).sshiftRight 16).getLsbD i = t.getLsbD (min i 47) := by
  rw [BitVec.getLsbD_sshiftRight, decide_eq_false (Nat.not_le.mpr hi)]
  by_cases h : i < 48
  · rw [if_pos (show 16 + i < 64 by omega), BitVec.getLsbD_shiftLeft, Nat.add_sub_cancel_left,
      getLsbD_low x t h, Nat.min_eq_left (Nat.le_of_lt_succ h)]
    simp [show 16 + i < 64 by omega]
  · rw [if_neg (show ¬ 16 + i < 64 by omega), BitVec.msb_eq_getLsbD_last, BitVec.getLsbD_shiftLeft,
      getLsbD_low x t (by decide), Nat.min_eq_right (by omega)]
    rfl

/-- **The player is taken out where bit 47 is not set.** -/
theorem player_bits (x : BitVec 64) (ht : t.toNat < 2 ^ 48) :
    ((x <<< 48 ||| t) <<< 16).sshiftRight 16 = t ↔ t.toNat < 2 ^ 47 := by
  constructor
  · intro h
    have hbit : t.getLsbD 47 = false := by
      rw [← getLsbD_of_lt ht (Nat.le_refl 48), ← h, getLsbD_player x t (by decide),
        getLsbD_player x t (by decide)]
      rfl
    refine Nat.lt_pow_two_of_testBit _ fun i hi => ?_
    obtain rfl | hlt := Nat.eq_or_lt_of_le hi
    · exact hbit
    · exact getLsbD_of_lt ht hlt
  · intro h
    refine BitVec.eq_of_getLsbD_eq fun i hi => ?_
    rw [getLsbD_player x t hi]
    by_cases hlow : i < 48
    · rw [Nat.min_eq_left (Nat.le_of_lt_succ hlow)]
    · rw [getLsbD_of_lt h (by omega), getLsbD_of_lt h (by omega)]

/-- **Two ids that are the same have the same server and the same player.** -/
theorem eq_of_packed (hx : x.toNat < 2 ^ 16) (ht : t.toNat < 2 ^ 48) (hx' : x'.toNat < 2 ^ 16)
    (ht' : t'.toNat < 2 ^ 48) (h : x' <<< 48 ||| t' = x <<< 48 ||| t) : x' = x ∧ t' = t := by
  refine ⟨?_, BitVec.eq_of_getLsbD_eq fun i _ => ?_⟩
  · rw [← server_bits hx' ht', h, server_bits hx ht]
  · by_cases hlow : i < 48
    · rw [← getLsbD_low x' t' hlow, h, getLsbD_low x t hlow]
    · rw [getLsbD_of_lt ht (Nat.not_lt.mp hlow), getLsbD_of_lt ht' (Nat.not_lt.mp hlow)]

/-! ### Ids -/

theorem toNat_of_nonneg {n : Int64} (h0 : 0 ≤ n) : (n.toBitVec.toNat : ℤ) = n.toInt := by
  have h : (0 : ℤ) ≤ n.toBitVec.toInt := Int64.le_iff_toInt_le.mp h0
  have hlt := n.toBitVec.isLt
  change _ = n.toBitVec.toInt
  rw [BitVec.toInt_eq_toNat_cond] at h ⊢
  split_ifs at h ⊢ <;> omega

/-- A bound on an id as a bound on its bits. -/
theorem lt_iff_toNat_lt {n c : Int64} {k : ℕ} (h0 : 0 ≤ n) (hc : c.toInt = (2 ^ k : ℕ)) :
    n < c ↔ n.toBitVec.toNat < 2 ^ k := by
  rw [Int64.lt_iff_toInt_lt, hc, ← toNat_of_nonneg h0]
  exact Nat.cast_lt

theorem ServerId.bits {x : Int64} (h : ServerId x) : x.toBitVec.toNat < 2 ^ 16 :=
  (lt_iff_toNat_lt h.1 rfl).mp h.2

theorem Counter.bits {t : Int64} (h : Counter t) : t.toBitVec.toNat < 2 ^ 48 :=
  (lt_iff_toNat_lt h.1 rfl).mp h.2

/-- **An id is unpacked just where the number of the player is below `2 ^ 47`.** -/
theorem packed_iff (x t : Int64) (hx : ServerId x) (ht : Counter t) :
    Packed x t ↔ t < 0x800000000000 := by
  have hplayer : getPlayerCharid (createCharidGS x t) = t ↔ t.toBitVec.toNat < 2 ^ 47 := by
    rw [← Int64.toBitVec_inj]
    exact player_bits x.toBitVec ht.bits
  rw [lt_iff_toNat_lt (k := 47) ht.1 rfl, ← hplayer]
  refine ⟨Packed.player, fun h => ⟨?_, h, fun x' t' hx' ht' heq => ?_⟩⟩
  · rw [← Int64.toBitVec_inj]
    exact server_bits hx.bits ht.bits
  · obtain ⟨hxx, htt⟩ :=
      eq_of_packed hx.bits ht.bits hx'.bits ht'.bits (congrArg Int64.toBitVec heq)
    exact ⟨Int64.toBitVec_inj.mp hxx, Int64.toBitVec_inj.mp htt⟩

theorem packed_last : Packed 0xffff 0x7fffffffffff :=
  (packed_iff 0xffff 0x7fffffffffff (by decide) (by decide)).mpr (by decide)

/-- The number `2 ^ 47` of the server 1 comes back as `- 2 ^ 47`. -/
theorem not_packed : ¬ Packed 1 0x800000000000 := fun h =>
  absurd h.player (by decide)

end ChatShow.GameServer.CharIds
