import Mathlib.Data.FinEnum
import Mathlib.Data.Int.Notation
import Mathlib.Data.List.GetD
import Mathlib.Logic.Equiv.Basic
import Mathlib.Data.Fintype.EquivFin
import Mathlib.Tactic.Common

/-! # Encryption books

A book is a table of bytes and the table that undoes it. The first is made of a fixed table by
exchanges of two entries, whose places the bytes of the key give; the second is filled from the
first afterwards. An exchange is a swap of the two places before the table is applied
(`exchange_eq`), so every round keeps it a permutation, and the filled table is its inverse
(`fillDebook_inverse`). -/

namespace ChatShow.Antlib.EncryBooks

open Function (Bijective Injective update)

/-! ### The books -/

/-- 256 bytes by their index. -/
abbrev Table := UInt8 → UInt8

structure EncryBook where
  enbook : Table
  debook : Table
  key : UInt64

def g_initbook : List UInt8 :=
  [0xe3,0xa4,0xe5,0x7c,0x0b,0x9e,0xbc,0xfd,0x67,0x14,0xb0,0x96,0x44,0x9a,0xc2,0x77,
   0x4f,0xe9,0xe1,0xd6,0x8b,0xb4,0x86,0x1f,0x25,0xdb,0x93,0xd8,0x62,0xc9,0xca,0x53,
   0xa8,0xa2,0xad,0x8c,0x28,0x64,0x5a,0x9b,0xcd,0xb7,0x33,0x3a,0xb6,0xf7,0x46,0x5d,
   0x32,0x0e,0xd9,0x90,0x36,0xf6,0x11,0xaa,0x54,0x98,0x66,0x47,0xcf,0xc0,0x17,0x8e,
   0xb2,0x07,0x50,0x72,0xa3,0xe2,0x10,0x34,0xed,0x4d,0xf9,0x20,0x27,0xb8,0xc4,0xbe,
   0x61,0x37,0x91,0x9c,0xcb,0xaf,0x09,0x5e,0x6e,0xef,0xb9,0x55,0x0c,0xfc,0x9d,0x26,
   0x95,0x22,0x1d,0x2e,0x7e,0xd4,0xc7,0x29,0xa6,0x42,0x74,0xa5,0xc1,0x65,0x35,0x3c,
   0x0f,0xc3,0xa1,0x2a,0x13,0x8f,0x2b,0x92,0x06,0x2c,0x00,0xfb,0x68,0x7f,0xbb,0xee,
   0xac,0x43,0x01,0x51,0x2f,0x4c,0x73,0xce,0x60,0x85,0x52,0x0d,0xae,0xe8,0x79,0xe4,
   0x6f,0x69,0x19,0x6c,0x1b,0x5c,0xd0,0xff,0xbf,0x56,0x38,0xba,0x24,0x04,0x39,0xf8,
   0x3f,0xb3,0x9f,0x16,0xf1,0xe6,0x6d,0x49,0x12,0xd1,0x81,0x03,0x57,0xd7,0xcc,0x18,
   0x7b,0x6b,0x63,0x5f,0xa0,0x87,0xeb,0x5b,0xf4,0x76,0xf2,0x45,0x41,0x02,0xc6,0x78,
   0x84,0x3e,0x83,0x23,0xec,0xb5,0x15,0xc8,0x05,0x6a,0x7d,0x08,0x75,0x21,0x58,0xb1,
   0xda,0x99,0xdf,0xf0,0x89,0xd3,0x0a,0xab,0xdc,0x3b,0x30,0x1a,0x7a,0x88,0xdd,0x59,
   0x4a,0xc5,0xa9,0xf5,0x2d,0x4b,0x71,0xbd,0xf3,0x70,0x8a,0xd2,0x4e,0x1c,0xde,0x80,
   0xe7,0x94,0xfa,0xe0,0x8d,0x97,0x48,0xea,0x1e,0x82,0x3d,0x40,0x31,0xa7,0xd5,0xfe]

def initbook : Table := fun b => g_initbook.getD b.toNat 0

/-! ### Making them -/

/-- `EXCHANGE_ENCRYBOOK` -/
def exchange (enbook : Table) (index1 index2 : UInt8) : Table :=
  if index1 ≠ index2 then
    let temp := enbook index1
    update (update enbook index1 (enbook index2)) index2 temp
  else enbook

/-- The byte `n` of a key. -/
def keyByte (key : UInt64) (n : ℕ) : UInt8 := (key >>> (8 * UInt64.ofNat n)).toUInt8

/-- The exchange of the bytes `n` and `n + 4` of the key, which are then increased. -/
def exchangeKeys (n : ℕ) (s : Table × (ℕ → UInt8)) : Table × (ℕ → UInt8) :=
  let (enbook, keys) := s
  let enbook := exchange enbook (keys n) (keys (n + 4))
  let keys := update keys n (keys n + 1)
  (enbook, update keys (n + 4) (keys (n + 4) + 1))

def updateRound (s : Table × (ℕ → UInt8)) : Table × (ℕ → UInt8) :=
  exchangeKeys 3 (exchangeKeys 2 (exchangeKeys 1 (exchangeKeys 0 s)))

/-- The first `n` turns of the loop that fills `_debook`. -/
def fillDebook (enbook debook : Table) : ℕ → Table
  | 0 => debook
  | n + 1 => update (fillDebook enbook debook n) (enbook (UInt8.ofNat n)) (UInt8.ofNat n)

def updateEncrybook (book : EncryBook) (times : Int32) : EncryBook :=
  let enbook := (updateRound^[times.toInt.toNat] (book.enbook, keyByte book.key)).1
  { book with enbook, debook := fillDebook enbook book.debook 256 }

/-- `create_encrybook_key`, of what the two calls of `rand` return. -/
def createEncrybookKey (rand1 rand2 : Int32) : UInt64 :=
  (0x1010101008080808 : UInt64) ||| (rand1.toInt64.toUInt64 <<< 32) ||| rand2.toInt64.toUInt64

def getEncrybook (book : EncryBook) (key : UInt64) : EncryBook :=
  updateEncrybook { book with enbook := initbook, key } 8

/-- `create_encrybooks`, where `rand` returns `rands i` for the book `i`. -/
def createEncrybooks (list : List EncryBook) (rands : ℕ → Int32 × Int32) : List EncryBook :=
  list.mapIdx fun i book =>
    updateEncrybook { book with enbook := initbook, key := createEncrybookKey (rands i).1 (rands i).2 } 8

/-! ### Using them -/

/-- The first `n` turns of the loop of `encry` and `unencry`. -/
def applyTable (table : Table) (datas : ℕ → UInt8) : ℕ → ℕ → UInt8
  | 0 => datas
  | n + 1 => update (applyTable table datas n) n (table (applyTable table datas n n))

def encry (book : EncryBook) (datas : ℕ → UInt8) (dataslen : Int32) : ℕ → UInt8 :=
  applyTable book.enbook datas dataslen.toInt.toNat

def unencry (book : EncryBook) (datas : ℕ → UInt8) (dataslen : Int32) : ℕ → UInt8 :=
  applyTable book.debook datas dataslen.toInt.toNat

/-- The books there are. -/
inductive Made : EncryBook → Prop
  | get (book : EncryBook) (key : UInt64) : Made (getEncrybook book key)
  | create (list : List EncryBook) (rands : ℕ → Int32 × Int32) {book : EncryBook}
      (h : book ∈ createEncrybooks list rands) : Made book
  | update {book : EncryBook} (times : Int32) (h : Made book) : Made (updateEncrybook book times)

/-! ### The first table stays a permutation -/

variable {book : EncryBook} {enbook debook : Table} {s : Table × (ℕ → UInt8)}

theorem length_g_initbook : g_initbook.length = 256 := by decide +kernel

/-- The number whose bits are the bytes of a list. -/
def marks : List UInt8 → ℕ
  | [] => 0
  | b :: l => 2 ^ b.toNat ||| marks l

theorem mem_of_testBit_marks {l : List UInt8} {b : UInt8} (h : (marks l).testBit b.toNat = true) :
    b ∈ l := by
  induction l with
  | nil =>
    rw [marks, Nat.zero_testBit] at h
    cases h
  | cons c l ih =>
    rw [marks, Nat.testBit_or, Bool.or_eq_true, Nat.testBit_two_pow, decide_eq_true_eq] at h
    obtain h | h := h
    · exact List.mem_cons.mpr (.inl (UInt8.toNat_inj.mp h.symm))
    · exact List.mem_cons_of_mem _ (ih h)

theorem marks_g_initbook : marks g_initbook = 2 ^ 256 - 1 := by decide +kernel

/-- Every byte is in the fixed table. -/
theorem bijective_initbook : Bijective initbook := by
  refine Finite.surjective_iff_bijective.mp fun b => ?_
  have hbit : (marks g_initbook).testBit b.toNat = true := by
    rw [marks_g_initbook, Nat.testBit_two_pow_sub_one]
    exact decide_eq_true b.toNat_lt
  obtain ⟨i, hi, hb⟩ := List.getElem_of_mem (mem_of_testBit_marks hbit)
  have hi256 : i < 256 := length_g_initbook ▸ hi
  refine ⟨UInt8.ofNat i, ?_⟩
  unfold initbook
  rw [UInt8.toNat_ofNat_of_lt' hi256, List.getD_eq_getElem _ _ hi, hb]

/-- An exchange swaps two places. -/
theorem exchange_eq (enbook : Table) (i j : UInt8) :
    exchange enbook i j = enbook ∘ Equiv.swap i j := by
  unfold exchange
  by_cases hij : i = j
  · rw [if_neg (not_not.mpr hij), hij, Equiv.swap_self]
    rfl
  · rw [if_pos hij]
    funext b
    rw [Function.comp_apply]
    by_cases hbj : b = j
    · rw [hbj, Equiv.swap_apply_right, Function.update_self]
    · rw [Function.update_of_ne hbj]
      by_cases hbi : b = i
      · rw [hbi, Equiv.swap_apply_left, Function.update_self]
      · rw [Function.update_of_ne hbi, Equiv.swap_apply_of_ne_of_ne hbi hbj]

theorem bijective_exchangeKeys (n : ℕ) (h : Bijective s.1) : Bijective (exchangeKeys n s).1 := by
  change Bijective (exchange s.1 (s.2 n) (s.2 (n + 4)))
  rw [exchange_eq]
  exact h.comp (Equiv.bijective _)

theorem bijective_updateRound (h : Bijective s.1) : Bijective (updateRound s).1 :=
  bijective_exchangeKeys 3 (bijective_exchangeKeys 2
    (bijective_exchangeKeys 1 (bijective_exchangeKeys 0 h)))

theorem bijective_rounds (n : ℕ) (h : Bijective s.1) : Bijective (updateRound^[n] s).1 := by
  induction n generalizing s with
  | zero => exact h
  | succ n ih => exact ih (bijective_updateRound h)

/-! ### The second table undoes it -/

/-- What the loop has filled in. -/
theorem fillDebook_of_lt (h : Injective enbook) (debook : Table) {n i : ℕ} (hn : n ≤ 256)
    (hi : i < n) :
    fillDebook enbook debook n (enbook (UInt8.ofNat i)) = UInt8.ofNat i := by
  induction n with
  | zero => cases hi
  | succ n ih =>
    rw [fillDebook]
    by_cases hin : i = n
    · rw [hin, Function.update_self]
    · have hne : enbook (UInt8.ofNat i) ≠ enbook (UInt8.ofNat n) := by
        intro he
        have htoNat := congrArg UInt8.toNat (h he)
        rw [UInt8.toNat_ofNat_of_lt' (by rw [UInt8.size]; omega),
          UInt8.toNat_ofNat_of_lt' (by rw [UInt8.size]; omega)] at htoNat
        exact hin htoNat
      rw [Function.update_of_ne hne, ih (by omega) (by omega)]

theorem fillDebook_inverse (h : Injective enbook) (debook : Table) (b : UInt8) :
    fillDebook enbook debook 256 (enbook b) = b := by
  have hb := fillDebook_of_lt h debook (Nat.le_refl 256) b.toNat_lt
  rwa [UInt8.ofNat_toNat] at hb

/-- The tables are permutations that undo each other. -/
structure Inverse (book : EncryBook) : Prop where
  enbook : Bijective book.enbook
  debook : Bijective book.debook
  left : Function.LeftInverse book.debook book.enbook
  right : Function.RightInverse book.debook book.enbook

theorem inverse_updateEncrybook (h : Bijective book.enbook) (times : Int32) :
    Inverse (updateEncrybook book times) := by
  have hen : Bijective (updateEncrybook book times).enbook := bijective_rounds _ h
  have hleft :
      Function.LeftInverse (updateEncrybook book times).debook (updateEncrybook book times).enbook :=
    fillDebook_inverse hen.injective book.debook
  have hright := hleft.rightInverse_of_surjective hen.surjective
  exact ⟨hen, ⟨hright.injective, hleft.surjective⟩, hleft, hright⟩

theorem Made.inverse (h : Made book) : Inverse book := by
  induction h with
  | get book key => exact inverse_updateEncrybook bijective_initbook 8
  | create list rands h =>
    obtain ⟨i, hi, rfl⟩ := List.mem_mapIdx.mp h
    exact inverse_updateEncrybook bijective_initbook 8
  | update times _ ih => exact inverse_updateEncrybook ih.enbook times

/-! ### The data come back -/

theorem applyTable_apply (table : Table) (datas : ℕ → UInt8) (n i : ℕ) :
    applyTable table datas n i = if i < n then table (datas i) else datas i := by
  induction n generalizing i with
  | zero => exact (if_neg (Nat.not_lt_zero i)).symm
  | succ n ih =>
    rw [applyTable, Function.update_apply, ih, if_neg (Nat.lt_irrefl n), ih]
    split_ifs with heq hlt hlt hlt
    · rw [heq]
    · omega
    · rfl
    · omega
    · omega
    · rfl

theorem applyTable_undo {table undo : Table} (h : Function.LeftInverse undo table)
    (datas : ℕ → UInt8) (n : ℕ) :
    applyTable undo (applyTable table datas n) n = datas := by
  funext i
  rw [applyTable_apply, applyTable_apply]
  split_ifs with hi
  · exact h _
  · rfl

/-- **The tables of every book are permutations that undo each other, and so are `encry` and
`unencry`.** -/
theorem Made.invertible (h : Made book) :
    Inverse book ∧ ∀ (datas : ℕ → UInt8) (dataslen : Int32),
      unencry book (encry book datas dataslen) dataslen = datas ∧
      encry book (unencry book datas dataslen) dataslen = datas :=
  ⟨h.inverse, fun datas _ =>
    ⟨applyTable_undo h.inverse.left datas _, applyTable_undo h.inverse.right datas _⟩⟩

/-- A book that is updated three rounds further. -/
theorem invertible_updated :
    Made (updateEncrybook (getEncrybook ⟨id, id, 0⟩ 0x0123456789abcdef) 3) ∧
      Inverse (updateEncrybook (getEncrybook ⟨id, id, 0⟩ 0x0123456789abcdef) 3) :=
  have h := Made.update 3 (Made.get ⟨id, id, 0⟩ 0x0123456789abcdef)
  ⟨h, h.invertible.1⟩

end ChatShow.Antlib.EncryBooks
