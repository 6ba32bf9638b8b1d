import Mathlib.Data.List.Basic
import Mathlib.Data.List.Infix
import Mathlib.Data.List.Nodup
import Mathlib.Logic.Function.Basic
import Mathlib.Order.Basic
import Mathlib.Tactic.Common

/-! # Events and their slots

`CEEvent` and `BoundSlot`. An event has its slots in the order of a multimap, by group and within a
group by age; slots are numbered and have a functor until they are disconnected. A fire goes through
the slots that there are at its beginning, each of which gets a turn. What a callback does,
depending on a state of the program and on the arguments, is a reaction: it subscribes and
disconnects slots of the event, its own or others, and returns or throws. A fire of the event within
a callback is what its callbacks do.

However the callbacks react, a fire calls the slots that are still connected at their turns, once
each and in the order of the groups, up to the first that does not return true (`dispatched`). -/

namespace ChatShow.CommBase.EventSet

/-- A `BoundSlot`, whose `m_subscriber` has the functor. -/
structure BoundSlot (F : Type*) where
  group : UInt32 := 0
  functor : Option F := none
  /-- `m_event` is not null -/
  event : Bool := false

/-- `CEEvent`, with the slots that there have been. -/
structure CEEvent (F : Type*) where
  slots : List ℕ := []
  bound : ℕ → BoundSlot F := fun _ => {}
  made : ℕ := 0

structure EventArgs where
  handled : UInt32 := 0
  bfire : Bool := false

/-- What a callback does to the event. -/
inductive Action (F : Type*)
  | subscribe (group : UInt32) (functor : Option F)
  | disconnect (slot : ℕ)

inductive Result
  | returned (value : Bool)
  | threw
deriving DecidableEq

/-- What a callback does, and the state of the program after it. -/
structure Reaction (F σ : Type*) where
  actions : List (Action F) := []
  result : Result
  world : σ

variable {F σ : Type*}

namespace CEEvent

/-! ### Slots -/

/-- `m_slots.insert`: behind the slots of the group. -/
def insertSlot (bound : ℕ → BoundSlot F) (c : ℕ) : List ℕ → List ℕ
  | [] => [c]
  | d :: l => if (bound d).group ≤ (bound c).group then d :: insertSlot bound c l else c :: d :: l

/-- `Subscribe`. -/
def subscribe (e : CEEvent F) (group : UInt32) (functor : Option F) : CEEvent F :=
  let bound := Function.update e.bound e.made ⟨group, functor, true⟩
  { slots := insertSlot bound e.made e.slots, bound := bound, made := e.made + 1 }

/-- `Unsubscribe`. -/
def unsubscribe (e : CEEvent F) (c : ℕ) : CEEvent F := { e with slots := e.slots.erase c }

def setBound (e : CEEvent F) (c : ℕ) (b : BoundSlot F) : CEEvent F :=
  { e with bound := Function.update e.bound c b }

/-- `BoundSlot::Connected`. -/
def connected (e : CEEvent F) (c : ℕ) : Bool := (e.bound c).functor.isSome

/-- The functor of a slot that is connected is deleted. -/
def cleanup (e : CEEvent F) (c : ℕ) : CEEvent F :=
  if e.connected c then e.setBound c { e.bound c with functor := none } else e

/-- A slot that has its event is taken out of it. -/
def detach (e : CEEvent F) (c : ℕ) : CEEvent F :=
  if (e.bound c).event then (e.unsubscribe c).setBound c { e.bound c with event := false } else e

/-- `BoundSlot::Disconnect`. -/
def disconnect (e : CEEvent F) (c : ℕ) : CEEvent F := (e.cleanup c).detach c

def act (e : CEEvent F) : Action F → CEEvent F
  | .subscribe group functor => e.subscribe group functor
  | .disconnect c => e.disconnect c

/-! ### A fire -/

/-- The turn of a slot: how things are when the loop comes to it, and what is called. -/
structure Turn (F σ : Type*) where
  slot : ℕ
  world : σ
  args : EventArgs
  event : CEEvent F
  call : Option (Reaction F σ)

/-- What a fire leaves: the turns of the loop, the state of the program, the arguments and the
event. -/
structure Fired (F σ : Type*) where
  turns : List (Turn F σ) := []
  world : σ
  args : EventArgs
  event : CEEvent F

/-- The loop of `operator()` over the slots that were there. -/
def fireLoop (callback : σ → F → EventArgs → Reaction F σ) :
    List ℕ → σ → EventArgs → CEEvent F → Fired F σ
  | [], w, args, e => { world := w, args := args, event := e }
  | c :: conList, w, args, e =>
    match (e.bound c).functor with
    | none =>
      let r := fireLoop callback conList w args e
      { r with turns := ⟨c, w, args, e, none⟩ :: r.turns }
    | some f =>
      let reaction := callback w f args
      let turn : Turn F σ := ⟨c, w, args, e, some reaction⟩
      let e := reaction.actions.foldl act e
      if reaction.result = .returned true then
        let r := fireLoop callback conList reaction.world { args with handled := args.handled + 1 } e
        { r with turns := turn :: r.turns }
      else { turns := [turn], world := reaction.world, args := { args with bfire := true }, event := e }

/-- `operator()`. -/
def fire (callback : σ → F → EventArgs → Reaction F σ) (w : σ) (args : EventArgs) (e : CEEvent F) :
    Fired F σ :=
  fireLoop callback e.slots w args e

/-- What the program does with an event. -/
inductive Label (F σ : Type*)
  | act (a : Action F)
  | fire (w : σ) (args : EventArgs)

def step (callback : σ → F → EventArgs → Reaction F σ) (e : CEEvent F) : Label F σ → CEEvent F
  | .act a => e.act a
  | .fire w args => (e.fire callback w args).event

/-- The event after a history. -/
def after (callback : σ → F → EventArgs → Reaction F σ) (history : List (Label F σ)) : CEEvent F :=
  history.foldl (step callback) {}

/-! ### What an event keeps -/

variable {e : CEEvent F} {c d : ℕ} {callback : σ → F → EventArgs → Reaction F σ}

/-- The slots are in the order of their groups, and none is there twice. -/
structure Good (e : CEEvent F) : Prop where
  sorted : e.slots.Pairwise fun c d => (e.bound c).group ≤ (e.bound d).group
  nodup : e.slots.Nodup
  lt : ∀ c ∈ e.slots, c < e.made

theorem good_new : Good ({} : CEEvent F) :=
  ⟨List.Pairwise.nil, List.nodup_nil, fun _ hc => nomatch hc⟩

theorem mem_insertSlot {bound : ℕ → BoundSlot F} {l : List ℕ} :
    d ∈ insertSlot bound c l ↔ d = c ∨ d ∈ l := by
  induction l with
  | nil => exact List.mem_cons
  | cons a l ih =>
    rw [insertSlot]
    split_ifs
    · rw [List.mem_cons, ih, List.mem_cons, or_left_comm]
    · exact List.mem_cons

theorem sorted_insertSlot {bound : ℕ → BoundSlot F} {l : List ℕ}
    (h : l.Pairwise fun c d => (bound c).group ≤ (bound d).group) :
    (insertSlot bound c l).Pairwise fun c d => (bound c).group ≤ (bound d).group := by
  induction l with
  | nil => exact List.pairwise_singleton _ c
  | cons a l ih =>
    obtain ⟨ha, hl⟩ := List.pairwise_cons.mp h
    rw [insertSlot]
    split_ifs with hle
    · refine List.pairwise_cons.mpr ⟨fun d hd => ?_, ih hl⟩
      obtain rfl | hd := mem_insertSlot.mp hd
      · exact hle
      · exact ha d hd
    · have hlt : (bound c).group ≤ (bound a).group := UInt32.le_of_lt (UInt32.not_le.mp hle)
      refine List.pairwise_cons.mpr ⟨fun d hd => ?_, h⟩
      obtain rfl | hd := List.mem_cons.mp hd
      · exact hlt
      · exact UInt32.le_trans hlt (ha d hd)

theorem nodup_insertSlot {bound : ℕ → BoundSlot F} {l : List ℕ} (h : l.Nodup) (hc : c ∉ l) :
    (insertSlot bound c l).Nodup := by
  induction l with
  | nil => exact List.nodup_singleton c
  | cons a l ih =>
    obtain ⟨ha, hl⟩ := List.nodup_cons.mp h
    obtain ⟨hca, hcl⟩ := not_or.mp (mt List.mem_cons.mpr hc)
    rw [insertSlot]
    split_ifs
    · refine List.nodup_cons.mpr ⟨fun hm => ?_, ih hl hcl⟩
      obtain he | hm := mem_insertSlot.mp hm
      · exact hca he.symm
      · exact ha hm
    · exact List.nodup_cons.mpr ⟨hc, h⟩

theorem good_subscribe (h : Good e) (group : UInt32) (functor : Option F) :
    Good (e.subscribe group functor) := by
  have hold : ∀ c ∈ e.slots, Function.update e.bound e.made ⟨group, functor, true⟩ c = e.bound c :=
    fun c hc => Function.update_of_ne (Nat.ne_of_lt (h.lt c hc)) _ _
  have hsorted : e.slots.Pairwise fun c d =>
      (Function.update e.bound e.made ⟨group, functor, true⟩ c).group ≤
        (Function.update e.bound e.made ⟨group, functor, true⟩ d).group := by
    refine h.sorted.imp_of_mem fun {c d} hc hd hle => ?_
    rw [hold c hc, hold d hd]
    exact hle
  refine ⟨sorted_insertSlot hsorted, nodup_insertSlot h.nodup fun hm => Nat.lt_irrefl _ (h.lt _ hm),
    fun c hc => ?_⟩
  obtain rfl | hc := mem_insertSlot.mp hc
  · exact Nat.lt_succ_self _
  · exact Nat.lt_succ_of_lt (h.lt c hc)

theorem bound_setBound (e : CEEvent F) (c : ℕ) (b : BoundSlot F) (d : ℕ) :
    (e.setBound c b).bound d = if d = c then b else e.bound d := Function.update_apply e.bound c b d

theorem bound_cleanup (e : CEEvent F) (c d : ℕ) :
    (e.cleanup c).bound d = if d = c then { e.bound c with functor := none } else e.bound d := by
  unfold cleanup
  split_ifs with hc hd hd
  · rw [bound_setBound, if_pos hd]
  · rw [bound_setBound, if_neg hd]
  · have hnone : (e.bound c).functor = none := Option.not_isSome_iff_eq_none.mp hc
    rw [hd, ← hnone]
  · rfl

theorem bound_detach (e : CEEvent F) (c d : ℕ) :
    (e.detach c).bound d = if d = c then { e.bound c with event := false } else e.bound d := by
  unfold detach
  split_ifs with hc hd hd
  · rw [bound_setBound, if_pos hd]
  · rw [bound_setBound, if_neg hd]
    rfl
  · have hfalse : (e.bound c).event = false := Bool.eq_false_iff.mpr hc
    rw [hd, ← hfalse]
  · rfl

/-- **What `Disconnect` does**: the slot has neither functor nor event, the others have what they
had. -/
theorem bound_disconnect (e : CEEvent F) (c d : ℕ) :
    (e.disconnect c).bound d = if d = c then ⟨(e.bound c).group, none, false⟩ else e.bound d := by
  unfold disconnect
  rw [bound_detach, bound_cleanup, bound_cleanup, if_pos rfl]
  split_ifs <;> rfl

theorem group_disconnect (e : CEEvent F) (c d : ℕ) :
    ((e.disconnect c).bound d).group = (e.bound d).group := by
  rw [bound_disconnect]
  split_ifs with hd
  · rw [hd]
  · rfl

theorem slots_disconnect (e : CEEvent F) (c : ℕ) :
    (e.disconnect c).slots.Sublist e.slots ∧ (e.disconnect c).made = e.made := by
  have hslots : (e.cleanup c).slots = e.slots ∧ (e.cleanup c).made = e.made := by
    unfold cleanup
    split_ifs
    · exact ⟨rfl, rfl⟩
    · exact ⟨rfl, rfl⟩
  unfold disconnect detach
  rw [← hslots.1, ← hslots.2]
  split_ifs
  · exact ⟨List.erase_sublist, rfl⟩
  · exact ⟨List.Sublist.refl _, rfl⟩

theorem good_disconnect (h : Good e) (c : ℕ) : Good (e.disconnect c) := by
  obtain ⟨hsub, hmade⟩ := slots_disconnect e c
  refine ⟨?_, h.nodup.sublist hsub, fun d hd => hmade ▸ h.lt d (hsub.subset hd)⟩
  simp only [group_disconnect]
  exact h.sorted.sublist hsub

theorem good_act (h : Good e) (a : Action F) : Good (e.act a) := by
  cases a with
  | subscribe group functor => exact good_subscribe h group functor
  | disconnect c => exact good_disconnect h c

theorem good_acts (h : Good e) (as : List (Action F)) : Good (as.foldl act e) := by
  induction as generalizing e with
  | nil => exact h
  | cons a as ih => exact ih (good_act h a)

theorem good_fireLoop (h : Good e) (conList : List ℕ) (w : σ) (args : EventArgs) :
    Good (fireLoop callback conList w args e).event := by
  induction conList generalizing w args e with
  | nil => exact h
  | cons c conList ih =>
    rw [fireLoop]
    split
    · exact ih h w args
    · dsimp only
      split_ifs
      · exact ih (good_acts h _) _ _
      · exact good_acts h _

theorem good_after (callback : σ → F → EventArgs → Reaction F σ) (history : List (Label F σ)) :
    Good (after callback history) := by
  have hstep (e : CEEvent F) (h : Good e) (history : List (Label F σ)) :
      Good (history.foldl (step callback) e) := by
    induction history generalizing e with
    | nil => exact h
    | cons a history ih =>
      refine ih _ ?_
      cases a with
      | act a => exact good_act h a
      | fire w args => exact good_fireLoop h _ w args
  exact hstep {} good_new history

/-! ### Which slots are connected -/

/-- An action disconnects the slot that it is about, and no other that there is. -/
theorem connected_act (a : Action F) (hc : c < e.made) :
    ((e.act a).connected c = true ↔ e.connected c = true ∧ a ≠ .disconnect c) ∧
    c < (e.act a).made := by
  cases a with
  | subscribe group functor =>
    have hold : (e.subscribe group functor).bound c = e.bound c :=
      Function.update_of_ne (Nat.ne_of_lt hc) _ _
    refine ⟨?_, Nat.lt_succ_of_lt hc⟩
    unfold act connected
    dsimp only
    rw [hold]
    exact (and_iff_left fun h => nomatch h).symm
  | disconnect d =>
    refine ⟨?_, hc.trans_eq (slots_disconnect e d).2.symm⟩
    unfold act connected
    dsimp only
    rw [bound_disconnect]
    split_ifs with hd
    · rw [hd]
      exact iff_of_false Bool.false_ne_true fun h => h.2 rfl
    · exact (and_iff_left fun h => hd (Action.disconnect.inj h).symm).symm

/-- **The slots that are connected after a callback** are those that it has not disconnected. -/
theorem connected_acts (as : List (Action F)) (hc : c < e.made) :
    ((as.foldl act e).connected c = true ↔ e.connected c = true ∧ .disconnect c ∉ as) ∧
      c < (as.foldl act e).made := by
  induction as generalizing e with
  | nil => exact ⟨(and_iff_left List.not_mem_nil).symm, hc⟩
  | cons a as ih =>
    obtain ⟨hact, hlt⟩ := connected_act a hc
    obtain ⟨hacts, hlt'⟩ := ih hlt
    refine ⟨?_, hlt'⟩
    rw [List.foldl_cons, hacts, hact, List.mem_cons, not_or, and_assoc]
    exact and_congr_right fun _ => and_congr_left' ⟨Ne.symm, Ne.symm⟩

/-! ### The turns of a fire -/

variable {conList : List ℕ} {w : σ} {args : EventArgs}

/-- The callback of a turn disconnects the slot. -/
def Turn.Disconnects (t : Turn F σ) (c : ℕ) : Prop := ∃ r ∈ t.call, .disconnect c ∈ r.actions

/-- No callback has been called in the turn, or it has returned true. -/
def Turn.GoesOn (t : Turn F σ) : Prop := ∀ r ∈ t.call, r.result = .returned true

/-- How the `i`-th turn `t` of a fire of `e` has to be, which goes through the slots `conList`. -/
structure TurnOk (callback : σ → F → EventArgs → Reaction F σ) (conList : List ℕ) (e : CEEvent F)
    (turns : List (Turn F σ)) (i : ℕ) (t : Turn F σ) : Prop where
  slot : conList[i]? = some t.slot
  /-- A slot that is connected is called. -/
  call : t.call = (t.event.bound t.slot).functor.map fun f => callback t.world f t.args
  /-- It is connected unless it was not, or has been disconnected before its turn. -/
  connected : t.event.connected t.slot = true ↔
    e.connected t.slot = true ∧ ∀ u ∈ turns.take i, ¬ u.Disconnects t.slot
  /-- No callback before has stopped the fire. -/
  goesOn : ∀ u ∈ turns.take i, u.GoesOn

theorem TurnOk.head {turns : List (Turn F σ)} {u : Turn F σ} (hslot : u.slot = c)
    (hevent : u.event = e)
    (hcall : u.call = (e.bound c).functor.map fun f => callback u.world f u.args) :
    TurnOk callback (c :: conList) e (u :: turns) 0 u where
  slot := congrArg some hslot.symm
  call := by rw [hcall, hslot, hevent]
  connected := by
    rw [hevent]
    exact (and_iff_left fun u hu => nomatch hu).symm
  goesOn u hu := nomatch hu

/-- A turn comes before the others of the loop. -/
theorem TurnOk.cons {turns : List (Turn F σ)} {t u : Turn F σ} {i : ℕ} {e' : CEEvent F}
    (h : TurnOk callback conList e' turns i t) (hgo : u.GoesOn)
    (hconn : ∀ d ∈ conList, e'.connected d = true ↔ e.connected d = true ∧ ¬ u.Disconnects d) :
    TurnOk callback (c :: conList) e (u :: turns) (i + 1) t where
  slot := h.slot
  call := h.call
  connected := by
    rw [h.connected, hconn _ (List.mem_of_getElem? h.slot), List.take_succ_cons, List.forall_mem_cons,
      and_assoc]
  goesOn := by
    rw [List.take_succ_cons]
    exact List.forall_mem_cons.mpr ⟨hgo, h.goesOn⟩

/-- **Each turn of the loop is as it has to be.** -/
theorem turnOk_fireLoop (hlt : ∀ c ∈ conList, c < e.made) {i : ℕ} {t : Turn F σ}
    (ht : (fireLoop callback conList w args e).turns[i]? = some t) :
    TurnOk callback conList e (fireLoop callback conList w args e).turns i t := by
  induction conList generalizing w args e i with
  | nil => cases ht
  | cons c conList ih =>
    have hlt' : ∀ d ∈ conList, d < e.made := fun d hd => hlt d (List.mem_cons_of_mem c hd)
    rw [fireLoop] at ht ⊢
    cases hf : (e.bound c).functor with
    | none =>
      rw [hf] at ht
      dsimp only at ht ⊢
      cases i with
      | zero =>
        cases ht
        exact .head rfl rfl (by rw [hf]; rfl)
      | succ i =>
        refine (ih hlt' ht).cons (fun r hr => nomatch hr) fun d _ => ?_
        exact (and_iff_left fun ⟨r, hr, _⟩ => nomatch hr).symm
    | some f =>
      rw [hf] at ht
      dsimp only at ht ⊢
      by_cases hresult : (callback w f args).result = .returned true
      · rw [if_pos hresult] at ht ⊢
        cases i with
        | zero =>
          cases ht
          exact .head rfl rfl (by rw [hf]; rfl)
        | succ i =>
          have hacts := fun d hd => connected_acts (callback w f args).actions (hlt' d hd)
          refine (ih (fun d hd => (hacts d hd).2) ht).cons (fun r hr => ?_) fun d hd => ?_
          · cases hr
            exact hresult
          · rw [(hacts d hd).1]
            refine and_congr_right fun _ => not_congr ⟨fun h => ⟨_, rfl, h⟩, fun ⟨r, hr, h⟩ => ?_⟩
            cases hr
            exact h
      · rw [if_neg hresult] at ht ⊢
        cases i with
        | zero =>
          cases ht
          exact .head rfl rfl (by rw [hf]; rfl)
        | succ i => cases ht

/-- The slots get their turns from the first on, up to the last or to one that stops the fire. -/
theorem slots_fireLoop (callback : σ → F → EventArgs → Reaction F σ) (conList : List ℕ) (w : σ)
    (args : EventArgs) (e : CEEvent F) :
    ((fireLoop callback conList w args e).turns.map Turn.slot) <+: conList ∧
      ((fireLoop callback conList w args e).turns.map Turn.slot = conList ∨
        ∃ t ∈ (fireLoop callback conList w args e).turns.getLast?, ¬ t.GoesOn) := by
  have hcons {turns : List (Turn F σ)} {u : Turn F σ} {conList : List ℕ}
      (h : turns.map Turn.slot <+: conList ∧
        (turns.map Turn.slot = conList ∨ ∃ t ∈ turns.getLast?, ¬ t.GoesOn)) :
      (u :: turns).map Turn.slot <+: u.slot :: conList ∧
        ((u :: turns).map Turn.slot = u.slot :: conList ∨
        ∃ t ∈ (u :: turns).getLast?, ¬ t.GoesOn) := by
    obtain ⟨hpre, hend⟩ := h
    refine ⟨List.cons_prefix_cons.mpr ⟨rfl, hpre⟩, hend.imp (congrArg (u.slot :: ·)) ?_⟩
    rintro ⟨t, ht, hstop⟩
    refine ⟨t, ?_, hstop⟩
    cases turns with
    | nil => cases ht
    | cons a turns => exact ht
  induction conList generalizing w args e with
  | nil => exact ⟨List.nil_prefix, Or.inl rfl⟩
  | cons c conList ih =>
    rw [fireLoop]
    cases hf : (e.bound c).functor with
    | none => exact hcons (u := ⟨c, w, args, e, none⟩) (ih w args e)
    | some f =>
      dsimp only
      split_ifs with hresult
      · exact hcons (u := ⟨c, w, args, e, some (callback w f args)⟩) (ih _ _ _)
      · refine ⟨List.cons_prefix_cons.mpr ⟨rfl, List.nil_prefix⟩, Or.inr ⟨_, rfl, fun h => ?_⟩⟩
        exact hresult (h _ rfl)

/-- A fire of the event with these turns does what it has to. -/
structure Dispatched (callback : σ → F → EventArgs → Reaction F σ) (e : CEEvent F)
    (turns : List (Turn F σ)) : Prop where
  turn : ∀ i t, turns[i]? = some t → TurnOk callback e.slots e turns i t
  /-- No slot gets two turns. -/
  once : (turns.map Turn.slot).Nodup
  groups : turns.Pairwise fun t u => (e.bound t.slot).group ≤ (e.bound u.slot).group
  /-- Every slot gets a turn, or the last callback has stopped the fire. -/
  ends : turns.map Turn.slot = e.slots ∨ ∃ t ∈ turns.getLast?, ¬ t.GoesOn

/-- **A fire calls the slots that are connected at their turns, once each and by groups, up to the
first that does not return true**, whatever the callbacks do. -/
theorem dispatched (callback : σ → F → EventArgs → Reaction F σ) (history : List (Label F σ)) (w : σ)
    (args : EventArgs) : Dispatched callback (after callback history)
      ((after callback history).fire callback w args).turns := by
  have hgood := good_after callback history
  obtain ⟨hpre, hend⟩ := slots_fireLoop callback (after callback history).slots w args
    (after callback history)
  refine ⟨fun i t ht => turnOk_fireLoop hgood.lt ht, hgood.nodup.sublist hpre.sublist, ?_, hend⟩
  have hsorted := hgood.sorted.sublist hpre.sublist
  rw [List.pairwise_map] at hsorted
  exact hsorted

/-- The callback of the first slot disconnects the second. -/
def disconnectSecond (_ : Unit) (f : ℕ) (_ : EventArgs) : Reaction ℕ Unit :=
  ⟨if f = 0 then [.disconnect 1] else [], .returned true, ()⟩

example : ((after disconnectSecond [.act (.subscribe 7 (some 0)), .act (.subscribe 7 (some 1)),
    .act (.subscribe 7 (some 2))]).fire disconnectSecond () {}).turns.map
      (fun t => (t.slot, t.call.isSome)) = [(0, true), (1, false), (2, true)] := by
  decide

end CEEvent

end ChatShow.CommBase.EventSet
