import ChatShow.Antlib.Timer
import Mathlib.Tactic.Ring

/-! # The timers and the clock

`do_timer` reads the clock, and where it has moved on since the last reading it runs `do_timers` in a
loop that counts down from the seconds between the two. The loop takes a turn at 0 as well, so that each
call that finds a later clock ticks once more than seconds have passed (`ticks_run`). -/

namespace ChatShow.Antlib.TimerPace

open ChatShow.Lib.Runs ChatShow.Antlib.Timer

/-- `timer_line`, with the seconds that `set_mytime` sets. -/
structure Line where
  timer : State := {}
  systime : ℤ := 0
  mytime : UInt32 := 0

/-- `while( n-- >= 0)`, which passes for 0. -/
def catchUp : ℕ → State → Option State
  | 0, s => s.doTimers
  | n + 1, s => s.doTimers.bind (catchUp n)

/-- `do_timer`, where the clock reads `t`. -/
def Line.doTimer (l : Line) (t : ℤ) : Option Line :=
  if t = l.systime then some l
  else
    let l' :=
      if t > l.systime then
        (catchUp ((t - l.systime) % 4).toNat l.timer).map fun s =>
          { l with timer := s, mytime := s.times }
      else some l
    l'.bind fun l => l.timer.doTimerEvent.map fun s => { l with timer := s, systime := t }

inductive Label
  | add (sec : ℤ) (handlerid : UInt32) (msg : ℕ)
  | call (t : ℤ)
deriving DecidableEq

def Line.step (l : Line) : Label → Option Line
  | .add sec handlerid msg => (l.timer.addTimer sec handlerid msg).map fun s => { l with timer := s }
  | .call t => l.doTimer t

/-! ### What is asked -/

/-- From a reading of the clock on, it does not go back, and moves by 3 seconds at most; the timers that
are added are those that `add_timer` takes. -/
def Paced : ℤ → List Label → Prop
  | _, [] => True
  | t₀, .add sec _ _ :: ops => sec ≤ timerMax ∧ Paced t₀ ops
  | t₀, .call t :: ops => (t₀ ≤ t ∧ t ≤ t₀ + 3) ∧ Paced t ops

/-- The wheel has come as far as the clock. -/
def InPace (l l' : Line) : Prop := (l'.timer.ticks : ℤ) - l.timer.ticks = l'.systime - l.systime

/-- The calls that find a later clock. -/
def moved : ℤ → List Label → ℕ
  | _, [] => 0
  | t₀, .add _ _ _ :: ops => moved t₀ ops
  | t₀, .call t :: ops => (if t₀ < t then 1 else 0) + moved t ops

/-! ### The ticks -/

variable {s s' : State} {l l' : Line} {ops : List Label}

theorem ticks_relink {n : ℕ} {p : Option ℕ} (h : s.relink n p = some s') : s'.ticks = s.ticks := by
  induction n generalizing s p with
  | zero =>
    cases p with
    | none => cases h; rfl
    | some a => cases h
  | succ n ih =>
    cases p with
    | none => cases h; rfl
    | some a =>
      obtain ⟨node, -, hrest⟩ := Option.bind_eq_some_iff.mp h
      have hind : s'.ticks = (s.addNear (node.expire &&& 0xFFFF).toNat a).ticks := ih hrest
      exact hind

theorem ticks_cascade (h : s.cascade = some s') : s'.ticks = s.ticks := by
  unfold State.cascade at h
  dsimp only at h
  split_ifs at h
  · obtain ⟨s₁, h₁, hrest⟩ := Option.bind_eq_some_iff.mp h
    obtain ⟨freed, -, rfl⟩ := Option.map_eq_some_iff.mp hrest
    show s₁.ticks = s.ticks
    exact ticks_relink h₁
  · cases h
    rfl

theorem ticks_doTimers (h : s.doTimers = some s') : s'.ticks = s.ticks + 1 := by
  unfold State.doTimers at h
  obtain ⟨nodes, -, h⟩ := Option.bind_eq_some_iff.mp h
  obtain ⟨sent, -, h⟩ := Option.bind_eq_some_iff.mp h
  obtain ⟨freed, -, h⟩ := Option.bind_eq_some_iff.mp h
  obtain ⟨s₁, h₁, rfl⟩ := Option.map_eq_some_iff.mp h
  have hc := ticks_cascade h₁
  show s₁.ticks + 1 = s.ticks + 1
  exact congrArg (· + 1) hc

/-- The loop takes a turn more than it counts. -/
theorem ticks_catchUp {n : ℕ} (h : catchUp n s = some s') : s'.ticks = s.ticks + n + 1 := by
  induction n generalizing s with
  | zero => exact ticks_doTimers h
  | succ n ih =>
    obtain ⟨s₁, h₁, hrest⟩ := Option.bind_eq_some_iff.mp h
    rw [ih hrest, ticks_doTimers h₁]
    omega

theorem ticks_take {a : ℕ} (h : s.take a = some s') : s'.ticks = s.ticks := by
  unfold State.take at h
  obtain ⟨n, -, h⟩ := Option.bind_eq_some_iff.mp h
  split_ifs at h
  · unfold State.sendNow at h
    split_ifs at h
    obtain ⟨m, -, rfl⟩ := Option.map_eq_some_iff.mp h
    rfl
  · cases h
    rfl
  · cases h
    rfl

theorem ticks_takeAll {n : ℕ} (h : State.takeAll n s = some s') : s'.ticks = s.ticks := by
  induction n generalizing s with
  | zero =>
    cases h
    rfl
  | succ n ih =>
    unfold State.takeAll at h
    split at h
    · cases h
    · obtain ⟨s₁, h₁, hrest⟩ := Option.bind_eq_some_iff.mp h
      rw [ih hrest, ticks_take h₁]

theorem ticks_doTimerEvent (h : s.doTimerEvent = some s') : s'.ticks = s.ticks := by
  obtain ⟨s₁, h₁, rfl⟩ := Option.map_eq_some_iff.mp h
  show s₁.ticks = s.ticks
  exact ticks_takeAll h₁

/-! ### The calls -/

theorem doTimer_still (l : Line) : l.doTimer l.systime = some l := if_pos rfl

/-- **A call that finds a clock of 1 to 3 seconds later ticks one second more.** -/
theorem ticks_doTimer {t : ℤ} (hlt : l.systime < t) (hle : t ≤ l.systime + 3)
    (h : l.doTimer t = some l') :
    (l'.timer.ticks : ℤ) = l.timer.ticks + (t - l.systime) + 1 ∧ l'.systime = t := by
  unfold Line.doTimer at h
  rw [if_neg (by omega), if_pos hlt] at h
  obtain ⟨l₁, h₁, h⟩ := Option.bind_eq_some_iff.mp h
  obtain ⟨s₁, hloop, rfl⟩ := Option.map_eq_some_iff.mp h₁
  obtain ⟨s₂, hevent, rfl⟩ := Option.map_eq_some_iff.mp h
  refine ⟨?_, rfl⟩
  have hticks : s₂.ticks = l.timer.ticks + ((t - l.systime) % 4).toNat + 1 :=
    (ticks_doTimerEvent hevent).trans (ticks_catchUp hloop)
  dsimp only
  omega

theorem ticks_addTimer {sec : ℤ} {handlerid : UInt32} {msg : ℕ}
    (h : l.step (.add sec handlerid msg) = some l') :
    l'.timer.ticks = l.timer.ticks ∧ l'.systime = l.systime := by
  obtain ⟨s, hs, rfl⟩ := Option.map_eq_some_iff.mp h
  refine ⟨?_, rfl⟩
  unfold State.addTimer at hs
  split_ifs at hs
  · cases hs
    rfl
  · cases hs
    rfl

/-! ### The runs -/

/-- **The wheel is ahead of the clock by a tick for each call that has found a later clock.** -/
theorem ticks_run (hp : Paced l.systime ops) (h : run Line.step l ops = some l') :
    (l'.timer.ticks : ℤ) - l.timer.ticks = l'.systime - l.systime + moved l.systime ops := by
  induction ops generalizing l with
  | nil =>
    cases h
    unfold moved
    omega
  | cons op ops ih =>
    obtain ⟨l₁, h₁, hrest⟩ := run_cons_some.mp h
    cases op with
    | add sec handlerid msg =>
      obtain ⟨hticks, hsys⟩ := ticks_addTimer h₁
      have hind := ih (by rw [hsys]; exact hp.2) hrest
      unfold moved
      rw [hticks, hsys] at hind
      exact hind
    | call t =>
      obtain ⟨⟨hge, hle⟩, hp⟩ := hp
      unfold moved
      by_cases ht : t = l.systime
      · subst ht
        rw [show l.step (.call l.systime) = some l from doTimer_still l, Option.some.injEq] at h₁
        subst h₁
        rw [if_neg (lt_irrefl _)]
        have hind := ih hp hrest
        omega
      · have hlt : l.systime < t := by omega
        obtain ⟨hticks, hsys⟩ := ticks_doTimer hlt hle h₁
        have hind := ih (by rw [hsys]; exact hp) hrest
        rw [hsys] at hind
        rw [if_pos hlt]
        push_cast
        omega

theorem moved_eq_zero {t₀ : ℤ} (hp : Paced t₀ ops) : moved t₀ ops = 0 ↔ ∀ t, .call t ∈ ops → t = t₀ := by
  induction ops generalizing t₀ with
  | nil => exact iff_of_true rfl fun t ht => by cases ht
  | cons op ops ih =>
    cases op with
    | add sec handlerid msg =>
      unfold moved
      rw [ih hp.2]
      refine forall_congr' fun t => ?_
      rw [List.mem_cons, or_iff_right (by simp)]
    | call t =>
      obtain ⟨⟨hge, hle⟩, hp⟩ := hp
      unfold moved
      constructor
      · intro hzero
        have heq : t = t₀ := by
          by_contra hne
          rw [if_pos (by omega)] at hzero
          omega
        subst heq
        rw [if_neg (lt_irrefl t), Nat.zero_add] at hzero
        intro t' ht'
        obtain he | ht' := List.mem_cons.mp ht'
        · cases he
          rfl
        · exact (ih hp).mp hzero t' ht'
      · intro hall
        obtain rfl := hall t List.mem_cons_self
        rw [if_neg (lt_irrefl t), (ih hp).mpr fun t' ht' => hall t' (List.mem_cons_of_mem _ ht')]

/-- A run in which the clock stands still comes to its end. -/
theorem run_still (hp : Paced l.systime ops) (h : ∀ t, .call t ∈ ops → t = l.systime) :
    ∃ l', run Line.step l ops = some l' := by
  induction ops generalizing l with
  | nil => exact ⟨l, rfl⟩
  | cons op ops ih =>
    have htail : ∀ t, .call t ∈ ops → t = l.systime := fun t ht => h t (List.mem_cons_of_mem _ ht)
    cases op with
    | add sec handlerid msg =>
      obtain ⟨l₁, h₁⟩ : ∃ l₁, l.step (.add sec handlerid msg) = some l₁ := by
        unfold Line.step State.addTimer
        dsimp only
        split_ifs with h0 hmax
        · exact ⟨_, rfl⟩
        · exact absurd hp.1 (not_le.mpr hmax)
        · exact ⟨_, rfl⟩
      have hsys := (ticks_addTimer h₁).2
      obtain ⟨l', hrun⟩ := ih (l := l₁) (by rw [hsys]; exact hp.2) (by rw [hsys]; exact htail)
      exact ⟨l', run_cons_some.mpr ⟨l₁, h₁, hrun⟩⟩
    | call t =>
      obtain rfl := h t List.mem_cons_self
      obtain ⟨l', hrun⟩ := ih hp.2 htail
      exact ⟨l', run_cons_some.mpr ⟨l, doTimer_still l, hrun⟩⟩

/-- **Where the wheel keeps pace with the clock**: where the clock stands still. -/
theorem inPace_iff (hp : Paced l.systime ops) :
    (∃ l', run Line.step l ops = some l' ∧ InPace l l') ↔ ∀ t, .call t ∈ ops → t = l.systime := by
  rw [← moved_eq_zero hp]
  constructor
  · rintro ⟨l', hrun, hpace⟩
    have hticks := ticks_run hp hrun
    unfold InPace at hpace
    omega
  · intro hzero
    obtain ⟨l', hrun⟩ := run_still hp ((moved_eq_zero hp).mp hzero)
    have hticks := ticks_run hp hrun
    refine ⟨l', hrun, ?_⟩
    unfold InPace
    omega

theorem inPace_iff_still : ∃ l', run Line.step {} [.add 5 1 7, .call 0, .call 0] = some l' ∧
    InPace {} l' := by
  have hp : Paced 0 [.add 5 1 7, .call 0, .call 0] := ⟨by decide, by decide, by decide, trivial⟩
  exact (inPace_iff (l := {}) hp).mpr (by simp)

/-- A second passes, and the wheel ticks twice. -/
theorem not_inPace : Paced ({} : Line).systime [.call 1] ∧
    ∃ l', run Line.step {} [.call 1] = some l' ∧ l'.systime = 1 ∧ l'.timer.times = 2 ∧
      ¬ InPace {} l' := by
  refine ⟨⟨by decide, trivial⟩, _, rfl, rfl, rfl, ?_⟩
  unfold InPace
  decide

end ChatShow.Antlib.TimerPace
