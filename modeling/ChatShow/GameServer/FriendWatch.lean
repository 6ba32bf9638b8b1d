import ChatShow.Lib.MultiMaps
import ChatShow.Lib.Runs

/-! # Who is told of a friend

`FriendMessage` keeps who watches whom twice: `m_event_list` has the watchers of a player, `m_watch_list`
those whom a player watches. `cancelWatch` changes only the first, so the two say the same just where no
watch is cancelled (`mirror_iff`). The first is always contained in the second, and that is enough for
`clearWatch`: who has gone offline is not told any more (`not_told_after_clearWatch`). -/

namespace ChatShow.GameServer.FriendWatch

open Std ChatShow.Lib.MultiMaps ChatShow.Lib.Runs

/-! ### The tables -/

/-- A call of `onEvent`. -/
structure Event where
  charID : Int64
  targetID : Int64
  attrType : Int32
  value : Int32

structure FriendMessage where
  event_list : TreeMap Int64 (TreeSet Int64) := ∅
  watch_list : TreeMap Int64 (TreeSet Int64) := ∅

namespace FriendMessage

variable (f : FriendMessage)

def watch (selfID targetID : Int64) : FriendMessage :=
  -- `m_event_list[targetID]` makes the set where there is none
  let refCharList := f.event_list[targetID]?.getD ∅
  if selfID ∈ refCharList then { f with event_list := f.event_list.insert targetID refCharList }
  else
    { event_list := f.event_list.insert targetID (refCharList.insert selfID)
      watch_list := addTo f.watch_list selfID targetID }

def cancelWatch (selfID targetID : Int64) : FriendMessage :=
  { f with event_list := removeFrom f.event_list targetID selfID }

def clearWatch (charID : Int64) : FriendMessage :=
  match f.watch_list[charID]? with
  | none => f
  | some set =>
    { event_list := removeAll f.event_list set.toList charID
      watch_list := f.watch_list.erase charID }

/-- `dispatchEvent`: the calls of `onEvent`, which leaves the tables as they are. -/
def dispatchEvent (charID : Int64) (attrType value : Int32) : List Event :=
  match f.event_list[charID]? with
  | none => []
  | some set =>
    if set.size = 0 then [] else set.toList.map fun it => ⟨charID, it, attrType, value⟩

end FriendMessage

/-! ### Calls -/

inductive Call
  | watch (selfID targetID : Int64)
  | cancelWatch (selfID targetID : Int64)
  | clearWatch (charID : Int64)
  | dispatchEvent (charID : Int64) (attrType value : Int32)

def exec (f : FriendMessage) : Call → FriendMessage
  | .watch selfID targetID => f.watch selfID targetID
  | .cancelWatch selfID targetID => f.cancelWatch selfID targetID
  | .clearWatch charID => f.clearWatch charID
  | .dispatchEvent .. => f

def step (f : FriendMessage) (c : Call) : Option FriendMessage := some (exec f c)

/-- The two tables are one relation. -/
def Mirror (f : FriendMessage) : Prop := ∀ s t, Has f.watch_list s t ↔ Has f.event_list t s

/-- A watch that is cancelled is not there. -/
def Spares (f : FriendMessage) (c : Call) : Prop :=
  ∀ s t, c = .cancelWatch s t → ¬ Has f.event_list t s

/-! ### What the calls do to the relations -/

variable {f f' : FriendMessage} {s t a b : Int64}

theorem has_event_watch :
    Has (f.watch s t).event_list a b ↔ (a = t ∧ b = s) ∨ Has f.event_list a b := by
  unfold FriendMessage.watch
  dsimp only
  split_ifs with h
  · rw [has_insert, mem_getD]
    rw [mem_getD] at h
    split_ifs with ht
    · subst ht
      exact (or_iff_right_of_imp fun hab => hab.2 ▸ h).symm
    · exact (or_iff_right fun hab => ht hab.1.symm).symm
  · exact has_addTo

theorem has_watch_watch :
    Has (f.watch s t).watch_list a b ↔
      (¬ Has f.event_list t s ∧ a = s ∧ b = t) ∨ Has f.watch_list a b := by
  unfold FriendMessage.watch
  dsimp only
  split_ifs with h
  · rw [mem_getD] at h
    exact (or_iff_right fun hn => hn.1 h).symm
  · rw [mem_getD] at h
    rw [has_addTo, and_iff_right h]

theorem has_event_clearWatch :
    Has (f.clearWatch s).event_list a b ↔
      Has f.event_list a b ∧ ¬ (Has f.watch_list s a ∧ b = s) := by
  unfold FriendMessage.clearWatch
  rcases hs : f.watch_list[s]? with _ | set
  · dsimp only
    refine (and_iff_left ?_).symm
    rintro ⟨⟨set, hset, -⟩, -⟩
    rw [hs] at hset
    cases hset
  · have hmem : a ∈ set.toList ↔ Has f.watch_list s a := by
      unfold Has
      simp only [hs, Option.some.injEq, exists_eq_left', TreeSet.mem_toList]
    dsimp only
    rw [has_removeAll, hmem]

theorem has_watch_clearWatch :
    Has (f.clearWatch s).watch_list a b ↔ Has f.watch_list a b ∧ a ≠ s := by
  unfold FriendMessage.clearWatch
  rcases hs : f.watch_list[s]? with _ | set
  · dsimp only
    refine (and_iff_left_of_imp ?_).symm
    rintro ⟨set, hset, -⟩ rfl
    rw [hs] at hset
    cases hset
  · exact has_erase

/-! ### The relations of all runs -/

/-- Who is told of a player watches it, and no set of watchers is empty. -/
structure Inv (f : FriendMessage) : Prop where
  watched : ∀ s t, Has f.event_list t s → Has f.watch_list s t
  noEmpty : NoEmpty f.event_list

theorem inv_init : Inv {} where
  watched _ _ h := absurd h not_has_empty
  noEmpty := noEmpty_empty

theorem inv_exec (h : Inv f) (c : Call) : Inv (exec f c) := by
  cases c with
  | watch s t =>
    refine ⟨fun a b hab => ?_, ?_⟩
    · rw [exec, has_watch_watch]
      rcases has_event_watch.mp hab with ⟨rfl, rfl⟩ | hab
      · by_cases hts : Has f.event_list b a
        · exact Or.inr (h.watched a b hts)
        · exact Or.inl ⟨hts, rfl, rfl⟩
      · exact Or.inr (h.watched a b hab)
    · rw [exec]
      unfold FriendMessage.watch
      dsimp only
      split_ifs with hs
      · refine h.noEmpty.insert (Bool.eq_false_iff.mpr fun he => ?_)
        exact TreeSet.isEmpty_iff_forall_not_mem.mp he s hs
      · exact h.noEmpty.addTo
  | cancelWatch s t =>
    exact ⟨fun a b hab => h.watched a b (has_removeFrom.mp hab).1, h.noEmpty.removeFrom⟩
  | clearWatch s =>
    refine ⟨fun a b hab => ?_, ?_⟩
    · obtain ⟨hba, hno⟩ := has_event_clearWatch.mp hab
      have hw := h.watched a b hba
      exact has_watch_clearWatch.mpr ⟨hw, fun has => hno ⟨has ▸ hw, has⟩⟩
    · rw [exec]
      unfold FriendMessage.clearWatch
      split
      · exact h.noEmpty
      · exact h.noEmpty.removeAll
  | dispatchEvent => exact h

/-- A call keeps the mirror unless it cancels a watch. -/
theorem mirror_exec_iff (h : Mirror f) (c : Call) : Spares f c ↔ Mirror (exec f c) := by
  cases c with
  | watch s t =>
    refine iff_of_true nofun fun a b => ?_
    rw [exec, has_watch_watch, has_event_watch, h a b]
    constructor
    · rintro (⟨-, rfl, rfl⟩ | hab)
      · exact Or.inl ⟨rfl, rfl⟩
      · exact Or.inr hab
    · rintro (⟨rfl, rfl⟩ | hab)
      · exact (Classical.em (Has f.event_list b a)).symm.imp (fun hts => ⟨hts, rfl, rfl⟩) id
      · exact Or.inr hab
  | cancelWatch s t =>
    constructor
    · intro hs a b
      rw [exec, FriendMessage.cancelWatch, has_removeFrom, h a b]
      refine (and_iff_left_of_imp ?_).symm
      rintro hab ⟨rfl, rfl⟩
      exact hs a b rfl hab
    · intro hm a b he hab
      cases he
      have := (hm s t).mp ((h s t).mpr hab)
      exact (has_removeFrom.mp this).2 ⟨rfl, rfl⟩
  | clearWatch s =>
    refine iff_of_true nofun fun a b => ?_
    rw [exec, has_watch_clearWatch, has_event_clearWatch, h a b, h s b]
    refine and_congr_right fun hab => ⟨fun hne hs => hne hs.2, fun hno has => ?_⟩
    subst has
    exact hno ⟨hab, rfl⟩
  | dispatchEvent => exact iff_of_true nofun h

/-- **The tables mirror each other all along a run just when it cancels no watch that is there.** -/
theorem mirror_iff (l : List Call) :
    (∀ l' f, l' <+: l → run step {} l' = some f → Mirror f) ↔ Along step Spares {} l :=
  along_iff (I := fun _ => True)
    (fun f c _ h => ⟨exec f c, rfl, trivial, mirror_exec_iff h c⟩) l trivial
    fun _ _ => iff_of_false not_has_empty not_has_empty

/-- A watch that was made and cancelled. -/
theorem not_mirror :
    ∃ f, run step {} [.watch 1 2, .cancelWatch 1 2] = some f ∧ ¬ Mirror f := by
  refine ⟨_, rfl, fun h => ?_⟩
  exact absurd ((h 1 2).mp (by decide +kernel)) (by decide +kernel)

/-! ### Who is told -/

theorem mem_dispatchEvent {attrType value : Int32} {e : Event}
    (h : e ∈ f.dispatchEvent t attrType value) : Has f.event_list t e.targetID := by
  unfold FriendMessage.dispatchEvent at h
  split at h
  · cases h
  next set hset =>
    split_ifs at h
    · cases h
    · obtain ⟨it, hit, rfl⟩ := List.mem_map.mp h
      exact ⟨set, hset, TreeSet.mem_toList.mp hit⟩

/-- Nobody is told of anybody as long as he does not watch. -/
theorem unwatched_exec {c : Call} (h : ∀ t, ¬ Has f.event_list t s) (hc : ∀ t, c ≠ .watch s t) (t : Int64) :
    ¬ Has (exec f c).event_list t s := by
  intro ht
  cases c with
  | watch a b =>
    rcases has_event_watch.mp ht with ⟨rfl, rfl⟩ | ht
    · exact hc t rfl
    · exact h t ht
  | cancelWatch a b => exact h t (has_removeFrom.mp ht).1
  | clearWatch a => exact h t (has_event_clearWatch.mp ht).1
  | dispatchEvent => exact h t ht

theorem unwatched_clearWatch (h : Inv f) (t : Int64) : ¬ Has (f.clearWatch s).event_list t s := by
  intro ht
  obtain ⟨hts, hno⟩ := has_event_clearWatch.mp ht
  exact hno ⟨h.watched s t hts, rfl⟩

/-- **After `clearWatch` a player is told of nobody until he calls `watch` again, and no set of watchers is
ever left empty.** -/
theorem not_told_after_clearWatch {l : List Call} (h : run step {} l = some f) :
    NoEmpty f.event_list ∧ ∀ s l₁ l₂, l = l₁ ++ .clearWatch s :: l₂ → (∀ t, .watch s t ∉ l₂) →
      ∀ t attrType value, ∀ e ∈ f.dispatchEvent t attrType value, e.targetID ≠ s := by
  have hstep : ∀ f c f', Inv f → step f c = some f' → Inv f' := by
    rintro f c _ hf ⟨⟩
    exact inv_exec hf c
  refine ⟨(run_inv hstep h inv_init).noEmpty, ?_⟩
  rintro s l₁ l₂ rfl hno t attrType value e he rfl
  obtain ⟨f₁, h₁, h₂⟩ := run_append_some.mp h
  obtain ⟨f₂, hclear, h₂⟩ := run_cons_some.mp h₂
  cases hclear
  have hun := run_inv_along (P := fun f => ∀ t, ¬ Has f.event_list t e.targetID) (G := fun _ _ => True)
    (Q := fun c => ∀ t, c ≠ .watch e.targetID t)
    (by
      rintro f c _ hf hc - ⟨⟩
      exact unwatched_exec hf hc)
    h₂ (fun c hc t hct => hno t (hct ▸ hc)) (along_of_take fun _ _ _ _ => trivial)
    (unwatched_clearWatch (run_inv hstep h₁ inv_init))
  exact hun t (mem_dispatchEvent he)

/-- Player 1 watches 2 and 3, cancels the one and goes offline, and 4 watches 2. -/
theorem not_told_cancelled :
    ∃ f, run step {} [.watch 1 2, .watch 1 3, .cancelWatch 1 2, .clearWatch 1, .watch 4 2] = some f ∧
      NoEmpty f.event_list ∧ ∀ e ∈ f.dispatchEvent 2 0 0, e.targetID ≠ 1 := by
  refine ⟨_, rfl, ?_⟩
  have h := @not_told_after_clearWatch _
    [.watch 1 2, .watch 1 3, .cancelWatch 1 2, .clearWatch 1, .watch 4 2] rfl
  exact ⟨h.1, h.2 1 [.watch 1 2, .watch 1 3, .cancelWatch 1 2] [.watch 4 2] rfl (by simp) 2 0 0⟩

end ChatShow.GameServer.FriendWatch
