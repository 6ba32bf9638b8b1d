import Mathlib.Data.List.Basic
import Mathlib.Data.List.Nodup
import Mathlib.Data.List.Perm.Basic
import Mathlib.Tactic.Common

/-! # Owners of objects

Each owner has a list of objects. The lists are `Exclusive` where no object is in two of them or twice
in one, and an object is `Held` where it is in some. Objects are taken from an owner (`drop`) or given
to one (`give`). -/

namespace ChatShow.Lib.Owners

variable {α ω : Type*} {lists lists' : ω → List α} {a b : α} {v w : ω} {gone : List α}

structure Exclusive (lists : ω → List α) : Prop where
  nodup : ∀ w, (lists w).Nodup
  unique : ∀ a v w, a ∈ lists v → a ∈ lists w → v = w

/-- An object that some owner has. -/
def Held (lists : ω → List α) (a : α) : Prop := ∃ w, a ∈ lists w

theorem Exclusive.existsUnique (h : Exclusive lists) : (∃! w, a ∈ lists w) ↔ Held lists a :=
  ⟨fun ⟨w, hw, _⟩ => ⟨w, hw⟩, fun ⟨w, hw⟩ => ⟨w, hw, fun v hv => h.unique a v w hv hw⟩⟩

/-- What has been taken from an owner, no one has. -/
theorem Exclusive.not_held_drop (h : Exclusive lists) (hw : (lists w).Perm (gone ++ lists' w))
    (ho : ∀ v ≠ w, lists' v = lists v) (ha : a ∈ gone) : ¬ Held lists' a := by
  rintro ⟨v, hv⟩
  have haw : a ∈ lists w := hw.symm.subset (List.mem_append_left _ ha)
  obtain rfl | hne := eq_or_ne v w
  · have hnodup := hw.nodup_iff.mp (h.nodup v)
    exact (List.nodup_append.mp hnodup).2.2 a ha a hv rfl
  · rw [ho v hne] at hv
    exact hne (h.unique a v w hv haw)

theorem Exclusive.held_drop (h : Exclusive lists) (hw : (lists w).Perm (gone ++ lists' w))
    (ho : ∀ v ≠ w, lists' v = lists v) : Held lists' a ↔ Held lists a ∧ a ∉ gone := by
  constructor
  · rintro ⟨v, hv⟩
    refine ⟨⟨v, ?_⟩, fun ha => h.not_held_drop hw ho ha ⟨v, hv⟩⟩
    obtain rfl | hne := eq_or_ne v w
    · exact hw.symm.subset (List.mem_append_right _ hv)
    · rwa [← ho v hne]
  · rintro ⟨⟨v, hv⟩, ha⟩
    refine ⟨v, ?_⟩
    obtain rfl | hne := eq_or_ne v w
    · exact (List.mem_append.mp (hw.subset hv)).resolve_left ha
    · rwa [ho v hne]

/-- Taking objects from an owner. -/
theorem Exclusive.drop (h : Exclusive lists) (hw : (lists w).Perm (gone ++ lists' w))
    (ho : ∀ v ≠ w, lists' v = lists v) : Exclusive lists' := by
  have hsub : ∀ v, lists' v ⊆ lists v := by
    intro v
    obtain rfl | hne := eq_or_ne v w
    · exact fun a ha => hw.symm.subset (List.mem_append_right _ ha)
    · rw [ho v hne]
      exact List.Subset.refl _
  refine ⟨fun v => ?_, fun a u v hu hv => h.unique a u v (hsub u hu) (hsub v hv)⟩
  obtain rfl | hne := eq_or_ne v w
  · exact (List.nodup_append.mp (hw.nodup_iff.mp (h.nodup v))).2.1
  · rw [ho v hne]
    exact h.nodup v

theorem held_give (hw : (lists' w).Perm (a :: lists w)) (ho : ∀ v ≠ w, lists' v = lists v) :
    Held lists' b ↔ Held lists b ∨ b = a := by
  constructor
  · rintro ⟨v, hv⟩
    obtain rfl | hne := eq_or_ne v w
    · exact (List.mem_cons.mp (hw.subset hv)).symm.imp_left fun hb => ⟨v, hb⟩
    · exact Or.inl ⟨v, by rwa [← ho v hne]⟩
  · rintro (⟨v, hv⟩ | rfl)
    · refine ⟨v, ?_⟩
      obtain rfl | hne := eq_or_ne v w
      · exact hw.symm.subset (List.mem_cons_of_mem _ hv)
      · rwa [ho v hne]
    · exact ⟨w, hw.symm.subset List.mem_cons_self⟩

/-- Giving an owner an object that no one has. -/
theorem Exclusive.give (h : Exclusive lists) (ha : ¬ Held lists a)
    (hw : (lists' w).Perm (a :: lists w)) (ho : ∀ v ≠ w, lists' v = lists v) : Exclusive lists' := by
  -- an object is in the list of an owner as before, or it is the new one of `w`
  have hmem : ∀ b v, b ∈ lists' v → b ∈ lists v ∨ b = a ∧ v = w := by
    intro b v hb
    obtain rfl | hne := eq_or_ne v w
    · exact (List.mem_cons.mp (hw.subset hb)).symm.imp_right fun he => ⟨he, rfl⟩
    · rw [ho v hne] at hb
      exact Or.inl hb
  constructor
  · intro v
    obtain rfl | hne := eq_or_ne v w
    · exact hw.nodup_iff.mpr (List.nodup_cons.mpr ⟨fun hm => ha ⟨v, hm⟩, h.nodup v⟩)
    · rw [ho v hne]
      exact h.nodup v
  · intro b u v hu hv
    obtain hu | ⟨rfl, rfl⟩ := hmem b u hu
    · obtain hv | ⟨rfl, rfl⟩ := hmem b v hv
      · exact h.unique b u v hu hv
      · exact absurd ⟨u, hu⟩ ha
    · obtain hv | ⟨-, rfl⟩ := hmem b v hv
      · exact absurd ⟨v, hv⟩ ha
      · rfl

end ChatShow.Lib.Owners
