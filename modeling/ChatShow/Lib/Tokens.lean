import Mathlib.Data.List.Basic
import Mathlib.Data.List.Count
import Mathlib.Data.List.Nodup
import Mathlib.Logic.Function.Basic
import Mathlib.Tactic.Common

/-! # A ledger of tokens

Tokens are issued and are then pending. A pending token is taken, which completes it, or it expires
together with others; what has expired leaves the ledger one by one, and is complete once it has
left. In a `Balanced` ledger no token is issued twice, and each issued token is in exactly one of
three places. Every move keeps that (`Balanced.moves`), so a token that is neither pending nor
leaving has been completed exactly once (`Balanced.count_done`). -/

namespace ChatShow.Lib.Tokens

variable {K : Type*} [DecidableEq K]

@[ext] structure Ledger (K : Type*) where
  issued : List K
  pending : K → Bool
  leaving : List K
  done : List K

namespace Ledger

def issue (L : Ledger K) (k : K) : Ledger K :=
  { L with issued := L.issued ++ [k], pending := Function.update L.pending k true }

def take (L : Ledger K) (k : K) : Ledger K :=
  { L with pending := Function.update L.pending k false, done := L.done ++ [k] }

def expire (L : Ledger K) (ks : List K) : Ledger K :=
  { L with pending := fun k => if k ∈ ks then false else L.pending k, leaving := ks }

theorem pending_issue (L : Ledger K) (k a : K) :
    (L.issue k).pending a = if k = a then true else L.pending a := by
  dsimp only [issue]
  rw [Function.update_apply]
  exact if_congr eq_comm rfl rfl

theorem pending_take (L : Ledger K) (k a : K) :
    (L.take k).pending a = if k = a then false else L.pending a := by
  dsimp only [take]
  rw [Function.update_apply]
  exact if_congr eq_comm rfl rfl

/-- What a step may do to a ledger. -/
inductive Moves (L : Ledger K) : Ledger K → Prop
  | stay : Moves L L
  | issue (k : K) (h : k ∉ L.issued) : Moves L (L.issue k)
  | take (k : K) (h : L.pending k = true) : Moves L (L.take k)
  | expire (ks : List K) (hl : L.leaving = []) (hd : ks.Nodup)
      (h : ∀ k ∈ ks, L.pending k = true) : Moves L (L.expire ks)
  | leave (k : K) (ks : List K) (h : L.leaving = k :: ks) :
    Moves L { L with leaving := ks, done := L.done ++ [k] }

/-- No token is issued twice, and those issued are pending, leaving or done, each once. -/
structure Balanced (L : Ledger K) : Prop where
  nodup : L.issued.Nodup
  count : ∀ k, (L.pending k).toNat + L.leaving.count k + L.done.count k = L.issued.count k

theorem count_snoc (l : List K) (k a : K) :
    (l ++ [k]).count a = l.count a + if k = a then 1 else 0 := by
  rw [List.count_append, List.count_singleton]
  simp only [beq_iff_eq]

/-- **Every move keeps the balance.** -/
theorem Balanced.moves {L L' : Ledger K} (h : L.Balanced) (hm : L.Moves L') : L'.Balanced := by
  cases hm with
  | stay => exact h
  | issue k hk =>
    have h0 : L.issued.count k = 0 := List.count_eq_zero.mpr hk
    have hp := h.count k
    constructor
    · exact List.nodup_append.mpr ⟨h.nodup, List.nodup_singleton k, fun a ha b hb hab => by
        rw [List.mem_singleton] at hb
        exact hk (hb ▸ hab ▸ ha)⟩
    · intro a
      have ha := h.count a
      rw [issue, count_snoc]
      by_cases hka : k = a
      · subst hka
        simp only [Function.update_self, Bool.toNat_true, if_pos]
        omega
      · simp only [Function.update_of_ne (Ne.symm hka), if_neg hka]
        exact ha
  | take k hk =>
    constructor
    · exact h.nodup
    · intro a
      have ha := h.count a
      rw [take]
      dsimp only
      rw [count_snoc]
      by_cases hka : k = a
      · subst hka
        rw [hk, Bool.toNat_true] at ha
        simp only [Function.update_self, Bool.toNat_false, if_pos]
        omega
      · simp only [Function.update_of_ne (Ne.symm hka), if_neg hka]
        exact ha
  | expire ks hl hd hk =>
    constructor
    · exact h.nodup
    · intro a
      have ha := h.count a
      rw [hl, List.count_nil] at ha
      rw [expire]
      dsimp only
      by_cases hka : a ∈ ks
      · rw [hk a hka, Bool.toNat_true] at ha
        rw [if_pos hka, Bool.toNat_false, List.count_eq_one_of_mem hd hka]
        omega
      · rw [if_neg hka, List.count_eq_zero.mpr hka]
        exact ha
  | leave k ks hl =>
    constructor
    · exact h.nodup
    · intro a
      have ha := h.count a
      rw [hl, List.count_cons] at ha
      simp only [beq_iff_eq] at ha
      dsimp only
      rw [count_snoc]
      omega

/-- A token that has been issued and is no longer pending does not become so again. -/
theorem Moves.pending_eq_false {L L' : Ledger K} (hm : L.Moves L') {k : K} (hk : k ∈ L.issued)
    (hp : L.pending k = false) : k ∈ L'.issued ∧ L'.pending k = false := by
  cases hm with
  | stay => exact ⟨hk, hp⟩
  | issue a ha =>
    have hne : k ≠ a := by
      rintro rfl
      exact ha hk
    exact ⟨List.mem_append_left _ hk, (Function.update_of_ne hne _ _).trans hp⟩
  | take a ha =>
    have hne : k ≠ a := by
      rintro rfl
      rw [hp] at ha
      cases ha
    exact ⟨hk, (Function.update_of_ne hne _ _).trans hp⟩
  | expire ks =>
    refine ⟨hk, ?_⟩
    dsimp only [Ledger.expire]
    split_ifs
    · rfl
    · exact hp
  | leave => exact ⟨hk, hp⟩

/-- An issued token is in exactly one place. -/
theorem Balanced.count_issued {L : Ledger K} (h : L.Balanced) {k : K} (hk : k ∈ L.issued) :
    (L.pending k).toNat + L.leaving.count k + L.done.count k = 1 := by
  rw [h.count, List.count_eq_one_of_mem h.nodup hk]

/-- **A token that is no longer pending and is not leaving has been completed once.** -/
theorem Balanced.count_done {L : Ledger K} (h : L.Balanced) {k : K} (hk : k ∈ L.issued)
    (hp : L.pending k = false) (hl : k ∉ L.leaving) : L.done.count k = 1 := by
  have h1 := h.count_issued hk
  rw [hp, List.count_eq_zero.mpr hl] at h1
  simpa using h1

end Ledger

end ChatShow.Lib.Tokens
