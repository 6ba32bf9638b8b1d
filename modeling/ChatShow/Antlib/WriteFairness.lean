import ChatShow.Antlib.WriteEvents
import ChatShow.Lib.Traces

/-! # What is queued is sent

A run of a connection that goes on without an end. That the kernel tells the events that are due
(`Fair.events`) is all that it promises under `EPOLLET`; that one is due while a message waits is what the
program sees to (`Waits`). A message in the queue is then released at some time, or the socket is closed,
whatever is put behind it meanwhile. -/

namespace ChatShow.Antlib.WriteFairness

open ChatShow.Lib.Runs ChatShow.Lib.Traces ChatShow.Lib.EdgeEvents
open ChatShow.Antlib.ConnectionSend ChatShow.Antlib.WriteEvents

/-! ### What is promised -/

/-- The thread is told that it can write. -/
def Told (s : State) (o : WriteEvents.Label) : Prop :=
  s.conn.sending = false ∧ ∃ room other made, o = .wait room other made ∧ (s.watch.wait room other).1 = true

def IsTurn (o : WriteEvents.Label) : Prop := ∃ w, o = .turn w

/-- An event that is due is told, unless the socket is closed; a socket that has been told to have room
takes something, or fails; and the thread goes on with its loop. -/
structure Fair {data : ℕ → List UInt8} (t : Trace (State.step data)) : Prop where
  events : ∀ n, (t.state n).conn.isOpen = true → (t.state n).conn.sending = false →
    (t.state n).watch.Owes →
    ∃ m, n ≤ m ∧ ((t.state m).conn.isOpen = false ∨ Told (t.state m) (t.label m))
  room : ∀ n, (t.state n).conn.sending = true → (t.state n).watch.told = true → t.label n ≠ .turn (.sent 0)
  turns : ∀ n, (t.state n).conn.sending = true → ∃ m, n ≤ m ∧ IsTurn (t.label m)

/-! ### What a step leaves -/

/-- Nothing that is queued or out comes back, a socket that is closed is not opened, and a connection that
has been made stays so. -/
structure Grows (s s' : State) : Prop where
  queued : s.conn.queued <+: s'.conn.queued
  out : s.conn.out <+: s'.conn.out
  isOpen : s'.conn.isOpen = true → s.conn.isOpen = true
  state : s.state ≠ .connecting → s'.state ≠ .connecting

section

variable {a : ℕ → Option ℕ} {data : ℕ → List UInt8} {c c' : Connection} {s s' s'' : State}
variable {waiting : List ℕ} {m : ℕ} {o : WriteEvents.Label}

theorem Grows.refl (s : State) : Grows s s := ⟨List.prefix_rfl, List.prefix_rfl, id, id⟩

theorem Grows.trans (h : Grows s s') (h' : Grows s' s'') : Grows s s'' :=
  ⟨h.queued.trans h'.queued, h.out.trans h'.out, h.isOpen ∘ h'.isOpen, h'.state ∘ h.state⟩

theorem addMsgs_grows {msgs : List Added} (h : addMsgs data c msgs = some c') :
    c.queued <+: c'.queued ∧ c'.out = c.out ∧ (c'.isOpen = true → c.isOpen = true) := by
  induction msgs generalizing c with
  | nil =>
    cases h
    exact ⟨List.prefix_rfl, rfl, id⟩
  | cons p msgs ih =>
    obtain ⟨c₁, hc, hrest⟩ := run_cons_some.mp h
    obtain ⟨hqueued, hout, hopen⟩ := ih hrest
    rw [Connection.step] at hc
    split_ifs at hc
    · cases hc
      exact ⟨hqueued, hout, hopen⟩
    · unfold Connection.addMsg at hc
      split_ifs at hc
      · cases hc
        exact ⟨hqueued, hout, fun ho => by cases hopen ho⟩
      · obtain ⟨q, -, rfl⟩ := Option.map_eq_some_iff.mp hc
        exact ⟨(List.prefix_append _ _).trans hqueued, hout, hopen⟩

theorem finish_grows (s : State) : Grows s s.finish := by
  unfold State.finish
  split_ifs
  · exact ⟨List.prefix_rfl, List.prefix_rfl, id, fun _ h => by cases h⟩
  · exact Grows.refl s

theorem sendMsg_grows (s : State) : Grows s s.sendMsg := by
  have hconn : Grows s { s with conn := s.conn.sendMsg } := ⟨List.prefix_rfl, List.prefix_rfl, id, id⟩
  unfold State.sendMsg
  dsimp only
  split_ifs
  · exact hconn
  · exact hconn.trans (finish_grows _)

theorem send_grows {made : Option (List Added)} (h : s.send data made = some s') : Grows s s' := by
  unfold State.send at h
  split_ifs at h with hc
  · obtain ⟨m, -, hm⟩ := Option.bind_eq_some_iff.mp h
    cases made with
    | none =>
      cases hm
      exact ⟨List.prefix_rfl, List.prefix_rfl, fun ho => (by cases ho), id⟩
    | some msgs =>
      obtain ⟨c, hadd, rfl⟩ := Option.map_eq_some_iff.mp hm
      obtain ⟨hqueued, hout, hopen⟩ := addMsgs_grows hadd
      have hmade : Grows s { s with conn := c, state := .nothng } :=
        ⟨hqueued, hout ▸ List.prefix_rfl, hopen, fun _ h => by cases h⟩
      exact hmade.trans (sendMsg_grows _)
  · cases h
    exact sendMsg_grows s

theorem turn_grows (s : State) (w : Write) : Grows s (s.turn data w) := by
  obtain ⟨hqueued, hout, hopen⟩ := turn_stays s.conn data w
  have hturn : Grows s { s with conn := s.conn.turn data w, watch := s.wrote data w } :=
    ⟨hqueued ▸ List.prefix_rfl, hout, hopen, id⟩
  unfold State.turn
  dsimp only
  split_ifs
  · exact hturn
  · exact hturn.trans (finish_grows _)

theorem step_grows (h : s.step data o = some s') : Grows s s' := by
  cases o with
  | domsg msgs room =>
    rw [State.step] at h
    split_ifs at h
    · cases h
      exact Grows.refl s
    · obtain ⟨c, hadd, rfl⟩ := Option.map_eq_some_iff.mp h
      obtain ⟨hqueued, hout, hopen⟩ := addMsgs_grows hadd
      split_ifs
      · exact ⟨hqueued, hout ▸ List.prefix_rfl, hopen, fun _ h => by cases h⟩
      · exact ⟨hqueued, hout ▸ List.prefix_rfl, hopen, id⟩
  | wait room other made =>
    rw [State.step] at h
    split_ifs at h
    · cases h
      exact Grows.refl s
    · obtain ⟨hqueued, hout, hopen, hstate⟩ := send_grows h
      exact ⟨hqueued, hout, hopen, hstate⟩
    · cases h
      exact ⟨List.prefix_rfl, List.prefix_rfl, id, id⟩
  | turn w =>
    rw [State.step] at h
    split_ifs at h
    · cases h
      exact turn_grows s w
    · cases h
      exact Grows.refl s
  | drained =>
    cases h
    exact ⟨List.prefix_rfl, List.prefix_rfl, id, id⟩
  | close =>
    rw [State.step] at h
    split_ifs at h
    · cases h
      exact Grows.refl s
    · cases h
      exact ⟨List.prefix_rfl, List.prefix_rfl, fun ho => (by cases ho), id⟩

/-- Within the loop, what is no turn of it is passed over. -/
theorem step_of_sending (hsending : s.conn.sending = true) (ho : ¬ IsTurn o)
    (h : s.step data o = some s') : s'.conn = s.conn ∧ s'.watch.told = s.watch.told := by
  cases o with
  | domsg msgs room =>
    rw [State.step, if_pos (.inl hsending)] at h
    cases h
    exact ⟨rfl, rfl⟩
  | wait room other made =>
    rw [State.step, if_pos (.inl hsending)] at h
    cases h
    exact ⟨rfl, rfl⟩
  | turn w => exact absurd ⟨w, rfl⟩ ho
  | drained =>
    cases h
    exact ⟨rfl, rfl⟩
  | close =>
    rw [State.step, if_pos hsending] at h
    cases h
    exact ⟨rfl, rfl⟩

/-- An event that is told begins the loop. -/
theorem step_of_told (h : Holds a data s) (hopen : s.conn.isOpen = true) (htold : Told s o)
    (hok : Ok a data s o) (hstep : s.step data o = some s') (hopen' : s'.conn.isOpen = true) :
    s'.conn.sending = true ∧ s'.watch.told = true ∧ s'.state ≠ .connecting := by
  obtain ⟨hidle, room, other, made, rfl, hwait⟩ := htold
  rw [State.step, if_neg (by rw [hidle, hopen]; decide), if_pos hwait] at hstep
  obtain ⟨hasked, htold⟩ := Watch.wait_told hwait
  obtain ⟨s₁, hs₁, -, hwatch, hmade⟩ := (h hopen).send ((Watch.asked_wait room other).trans hasked) hok
  obtain rfl : s' = s₁ := Option.some.inj (hstep.symm.trans hs₁)
  obtain ⟨hsending, hstate⟩ := hmade hopen'
  exact ⟨hsending, hwatch ▸ htold, hstate⟩

/-! ### A turn of the loop -/

/-- A socket that takes something of the first message has more out. -/
theorem turn_out_lt (h : Sends a data c (m :: waiting)) (hopen : c.isOpen = true) (n : ℕ) :
    c.out.length < (c.turn data (.sent (n + 1))).out.length := by
  have hnext := h.handedOver.next m ⟨waiting, by rw [h.queued, List.append_assoc]; rfl⟩
  rw [h.turn_out hopen]
  omega

/-- A socket that takes nothing ends the loop. -/
theorem turn_sent_zero (h : Sends a data c (m :: waiting)) (hopen : c.isOpen = true) :
    (c.turn data (.sent 0)).sending = false := by
  have hlt := h.left m List.mem_cons_self
  unfold Connection.turn Connection.write tcpWrite
  rw [h.kept.holds.first]
  dsimp only
  rw [if_pos hopen, if_neg (by omega), Nat.zero_min]
  rfl

theorem turn_error (h : Sends a data c (m :: waiting)) (hopen : c.isOpen = true) :
    (c.turn data .error).isOpen = false := by
  unfold Connection.turn Connection.write tcpWrite
  rw [h.kept.holds.first]
  dsimp only
  rw [if_pos hopen]

/-- While a message has not been released, its last byte is not out. -/
theorem out_lt {pre post : List ℕ} (h : Sends a data c waiting) (hqueued : c.queued = pre ++ m :: post)
    (hnot : m ∉ c.released) : c.out.length < ((pre ++ [m]).flatMap data).length := by
  obtain ⟨l, hl⟩ : c.released <+: pre := by
    have hpre : pre <+: c.queued := ⟨_, hqueued.symm⟩
    refine List.prefix_of_prefix_length_le ⟨_, h.queued.symm⟩ hpre (Nat.not_lt.mp fun hlt => hnot ?_)
    -- otherwise `m` is one of those that have been released
    have hm : pre ++ [m] <+: c.queued := ⟨post, by rw [hqueued, List.append_assoc]; rfl⟩
    have := List.prefix_of_prefix_length_le hm ⟨_, h.queued.symm⟩ (by rw [List.length_append]; exact hlt)
    exact this.subset (List.mem_append_right _ (List.mem_singleton_self m))
  obtain ⟨m₁, rest, hw⟩ : ∃ m₁ rest, l ++ [m] = m₁ :: rest := by
    cases l with
    | nil => exact ⟨m, [], rfl⟩
    | cons m₁ l => exact ⟨m₁, l ++ [m], rfl⟩
  have hall : pre ++ [m] = c.released ++ [m₁] ++ rest := by
    rw [← hl, List.append_assoc, hw, List.append_assoc]
    rfl
  have hfirst : c.released ++ [m₁] <+: c.queued :=
    ⟨rest ++ post, by rw [← List.append_assoc, ← hall, hqueued, List.append_assoc]; rfl⟩
  calc c.out.length
    _ < ((c.released ++ [m₁]).flatMap data).length := h.handedOver.next m₁ hfirst
    _ ≤ ((c.released ++ [m₁]).flatMap data ++ rest.flatMap data).length := by
      rw [List.length_append]
      exact Nat.le_add_right _ _
    _ = ((pre ++ [m]).flatMap data).length := by rw [hall, ← List.flatMap_append]

end

/-! ### A message that waits -/

/-- The message `m` waits on a connection that is open and made. -/
structure Unsent (m : ℕ) (s : State) : Prop where
  isOpen : s.conn.isOpen = true
  state : s.state ≠ .connecting
  queued : m ∈ s.conn.queued
  released : m ∉ s.conn.released

section

variable {a : ℕ → Option ℕ} {data : ℕ → List UInt8} {t : Trace (State.step data)} {m n : ℕ} {s : State}

theorem Unsent.sends (hun : Unsent m s) (h : Holds a data s) :
    ∃ m₁ waiting, Sends a data s.conn (m₁ :: waiting) := by
  obtain ⟨waiting, hs⟩ := (h hun.isOpen).sends hun.state
  cases waiting with
  | nil =>
    have hqueued := hs.queued
    rw [List.append_nil] at hqueued
    exact absurd (hqueued ▸ hun.queued) hun.released
  | cons m₁ waiting => exact ⟨m₁, waiting, hs⟩

/-- An event is due. -/
theorem Unsent.owes (hun : Unsent m s) (h : Holds a data s) (hidle : s.conn.sending = false) :
    s.watch.Owes := by
  obtain ⟨m₁, waiting, hs⟩ := hun.sends h
  have hcount : 0 < s.conn.sendqueue.count := by
    rw [hs.kept.holds.count]
    exact Int.natCast_pos.mpr (Nat.succ_pos _)
  exact (h hun.isOpen).owes hidle ((h hun.isOpen).asked.mpr (.inr (.inr hcount)))

theorem grows (t : Trace (State.step data)) {n m : ℕ} (h : n ≤ m) : Grows (t.state n) (t.state m) :=
  t.rel Grows.refl (fun _ _ _ => Grows.trans) (fun _ _ _ => step_grows) h

theorem state_of_turn {k : ℕ} {w : Write} (hsending : (t.state k).conn.sending = true)
    (hw : t.label k = .turn w) : (t.state (k + 1)).conn = (t.state k).conn.turn data w := by
  have hstep := t.step_eq k
  rw [hw, State.step, if_pos hsending] at hstep
  rw [← Option.some.inj hstep, turn_conn]

/-- Behind a place in the loop there is a turn of the same loop. -/
theorem exists_turn (hfair : Fair t) {k : ℕ} (hsending : (t.state k).conn.sending = true) :
    ∃ k' w, k ≤ k' ∧ t.label k' = .turn w ∧ (t.state k').conn = (t.state k).conn ∧
      (t.state k').watch.told = (t.state k).watch.told := by
  obtain ⟨j, hj, hturn⟩ := hfair.turns k hsending
  obtain ⟨k', hk', ⟨hconn, htold⟩, w, hw⟩ := t.exists_first
    (P := fun s => s.conn = (t.state k).conn ∧ s.watch.told = (t.state k).watch.told) (Q := IsTurn)
    (fun s o s' hs ho hstep => by
      obtain ⟨hconn, htold⟩ := step_of_sending (by rw [hs.1]; exact hsending) ho hstep
      exact ⟨hconn.trans hs.1, htold.trans hs.2⟩) hj ⟨rfl, rfl⟩ hturn
  exact ⟨k', w, hk', hw, hconn, htold⟩

variable (hholds : ∀ n, Holds a data (t.state n))

include hholds

/-- A turn ends the loop, as the socket takes nothing, or there is more out behind it. -/
theorem turn_of_unsent (hun : ∀ k, n ≤ k → Unsent m (t.state k)) {k : ℕ} {w : Write} (hk : n ≤ k)
    (hsending : (t.state k).conn.sending = true) (hw : t.label k = .turn w) :
    w = .sent 0 ∧ (t.state (k + 1)).conn.sending = false ∨
      (t.state k).conn.out.length < (t.state (k + 1)).conn.out.length := by
  have hopen := (hun k hk).isOpen
  have hopen' := (hun (k + 1) (by omega)).isOpen
  obtain ⟨m₁, waiting, hs⟩ := (hun k hk).sends (hholds k)
  rw [state_of_turn hsending hw] at hopen' ⊢
  cases w with
  | error => exact absurd (hopen'.symm.trans (turn_error hs hopen)) (by decide)
  | sent i =>
    cases i with
    | zero => exact .inl ⟨rfl, turn_sent_zero hs hopen⟩
    | succ i => exact .inr (turn_out_lt hs hopen i)

/-- In the loop that an event has begun, the socket takes something. -/
theorem out_lt_of_told (hfair : Fair t) (hun : ∀ k, n ≤ k → Unsent m (t.state k)) {k : ℕ} (hk : n ≤ k)
    (hsending : (t.state k).conn.sending = true) (htold : (t.state k).watch.told = true) :
    ∃ k', k ≤ k' ∧ (t.state k).conn.out.length < (t.state k').conn.out.length := by
  obtain ⟨j, w, hj, hw, hconn, htold'⟩ := exists_turn hfair hsending
  have hsending' : (t.state j).conn.sending = true := hconn ▸ hsending
  obtain ⟨rfl, -⟩ | hlt := turn_of_unsent hholds hun (hk.trans hj) hsending' hw
  · exact absurd hw (hfair.room j hsending' (htold'.trans htold))
  · exact ⟨j + 1, by omega, hconn ▸ hlt⟩

variable (hok : ∀ n, Ok a data (t.state n) (t.label n))

include hok

/-- Outside of the loop, the event that is due is told and begins it. -/
theorem out_lt_of_idle (hfair : Fair t) (hun : ∀ k, n ≤ k → Unsent m (t.state k)) {k : ℕ} (hk : n ≤ k)
    (hidle : (t.state k).conn.sending = false) :
    ∃ k', k ≤ k' ∧ (t.state k).conn.out.length < (t.state k').conn.out.length := by
  obtain ⟨j, hj, hclosed | htold⟩ :=
    hfair.events k (hun k hk).isOpen hidle ((hun k hk).owes (hholds k) hidle)
  · exact absurd ((hun j (hk.trans hj)).isOpen.symm.trans hclosed) (by decide)
  · obtain ⟨hsending, htold', -⟩ := step_of_told (hholds j) (hun j (hk.trans hj)).isOpen htold (hok j)
      (t.step_eq j) (hun (j + 1) (by omega)).isOpen
    obtain ⟨k', hk', hlt⟩ := out_lt_of_told hholds hfair hun (k := j + 1) (by omega) hsending htold'
    have hle := (grows t (show k ≤ j + 1 by omega)).out.length_le
    exact ⟨k', by omega, by omega⟩

/-- **While a message waits, more and more is out.** -/
theorem out_lt_of_unsent (hfair : Fair t) (hun : ∀ k, n ≤ k → Unsent m (t.state k)) (k : ℕ) (hk : n ≤ k) :
    ∃ k', k ≤ k' ∧ (t.state k).conn.out.length < (t.state k').conn.out.length := by
  cases hsending : (t.state k).conn.sending with
  | false => exact out_lt_of_idle hholds hok hfair hun hk hsending
  | true =>
    obtain ⟨j, w, hj, hw, hconn, -⟩ := exists_turn hfair hsending
    obtain ⟨-, hidle⟩ | hlt := turn_of_unsent hholds hun (hk.trans hj) (hconn ▸ hsending) hw
    · -- the next loop is begun by an event
      obtain ⟨k', hk', hlt⟩ := out_lt_of_idle hholds hok hfair hun (k := j + 1) (by omega) hidle
      have hle := (grows t (show k ≤ j + 1 by omega)).out.length_le
      exact ⟨k', by omega, by omega⟩
    · exact ⟨j + 1, by omega, hconn ▸ hlt⟩

/-- No message waits for ever. -/
theorem not_unsent (hfair : Fair t) : ¬ ∀ k, n ≤ k → Unsent m (t.state k) := by
  intro hun
  obtain ⟨pre, post, hqueued⟩ := List.append_of_mem (hun n le_rfl).queued
  obtain ⟨k, hk, hle⟩ := exists_le_of_grows (f := fun k => (t.state k).conn.out.length)
    (out_lt_of_unsent hholds hok hfair hun) ((pre ++ [m]).flatMap data).length
  obtain ⟨more, hmore⟩ := (grows t hk).queued
  rw [hqueued, List.append_assoc, List.cons_append] at hmore
  obtain ⟨m₁, waiting, hs⟩ := (hun k hk).sends (hholds k)
  exact absurd (out_lt hs hmore.symm (hun k hk).released) (Nat.not_lt.mpr hle)

/-- A connection that is being made is made, or closed. -/
theorem exists_made (hfair : Fair t) (n : ℕ) :
    ∃ k, n ≤ k ∧ ((t.state k).conn.isOpen = false ∨ (t.state k).state ≠ .connecting) := by
  by_contra hnot
  have hall : ∀ k, n ≤ k → (t.state k).conn.isOpen = true ∧ (t.state k).state = .connecting := by
    intro k hk
    refine ⟨?_, not_not.mp fun h => hnot ⟨k, hk, .inr h⟩⟩
    exact Bool.not_eq_false _ ▸ fun h => hnot ⟨k, hk, .inl h⟩
  obtain ⟨hopen, hstate⟩ := hall n le_rfl
  have hw := hholds n hopen
  have hidle := (hw.begun hstate).1
  have hasked := hw.asked.mpr (.inr (.inl fun h => by rw [hstate] at h; cases h))
  obtain ⟨j, hj, hclosed | htold⟩ := hfair.events n hopen hidle (hw.owes hidle hasked)
  · exact absurd ((hall j hj).1.symm.trans hclosed) (by decide)
  · obtain ⟨-, -, hmade⟩ := step_of_told (hholds j) (hall j hj).1 htold (hok j) (t.step_eq j)
      (hall (j + 1) (by omega)).1
    exact hmade (hall (j + 1) (by omega)).2

end

/-- A message is put into the queue, and there is room for it. -/
def oneLabel : ℕ → WriteEvents.Label
  | 0 => .domsg [(0, fun _ => none)] true
  | 1 => .wait true false none
  | 2 => .turn (.sent 2)
  | 3 => .turn (.sent 2)
  | _ + 4 => .drained

def oneState : ℕ → State
  | 0 => .accepted fun _ => none
  | n + 1 => ((oneState n).step (fun _ => [1, 2]) (oneLabel n)).getD (oneState n)

theorem oneState_rest (n : ℕ) : oneState (n + 4) = oneState 4 := by
  induction n with
  | zero => rfl
  | succ n ih =>
    show { oneState (n + 4) with watch := (oneState (n + 4)).watch.drained } = oneState 4
    rw [ih]
    rfl

def oneMessage : Trace (State.step fun _ => [1, 2]) where
  state := oneState
  label := oneLabel
  step_eq n := by rcases n with _ | _ | _ | _ | n <;> rfl

theorem ok_oneMessage (n : ℕ) :
    Ok (fun _ => none) (fun _ => [1, 2]) (oneMessage.state n) (oneMessage.label n) := by
  rcases n with _ | _ | _ | _ | n
  · exact (by decide : Ok (fun _ => none) (fun _ => [1, 2]) (oneState 0) (oneLabel 0))
  · exact (by decide : Ok (fun _ => none) (fun _ => [1, 2]) (oneState 1) (oneLabel 1))
  · exact (by decide : Ok (fun _ => none) (fun _ => [1, 2]) (oneState 2) (oneLabel 2))
  · exact (by decide : Ok (fun _ => none) (fun _ => [1, 2]) (oneState 3) (oneLabel 3))
  · trivial

theorem fair_oneMessage : Fair oneMessage where
  events n _ hidle howes := by
    rcases n with _ | _ | _ | _ | n
    · exact absurd howes (by decide : ¬ (oneState 0).watch.Owes)
    · exact ⟨1, le_rfl, .inr ⟨rfl, true, false, none, rfl, rfl⟩⟩
    · cases hidle
    · cases hidle
    · have hrest : (oneMessage.state (n + 4)).watch = (oneState 4).watch := congrArg State.watch (oneState_rest n)
      rw [hrest] at howes
      exact absurd howes (by decide)
  room n hsending _ := by
    rcases n with _ | _ | _ | _ | n
    · cases hsending
    · cases hsending
    · exact fun h => by cases h
    · exact fun h => by cases h
    · exact fun h => by cases h
  turns n hsending := by
    rcases n with _ | _ | _ | _ | n
    · cases hsending
    · cases hsending
    · exact ⟨2, le_rfl, .sent 2, rfl⟩
    · exact ⟨3, le_rfl, .sent 2, rfl⟩
    · have hrest : (oneMessage.state (n + 4)).conn = (oneState 4).conn := congrArg State.conn (oneState_rest n)
      rw [hrest] at hsending
      cases hsending

end ChatShow.Antlib.WriteFairness
