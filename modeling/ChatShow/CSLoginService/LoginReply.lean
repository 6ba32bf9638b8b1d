import ChatShow.CSLoginService.LoginNames
import ChatShow.Lib.Runs
import Mathlib.Data.List.Perm.Basic
import Mathlib.Data.List.Nodup

/-! # The replies to logins

While the gate is asked about a login, the connection of the login is in the record of its user. A
second login with the name puts its connection in the place of the first: the first answer of the gate
goes there and deletes the record, and the second is not passed on. So a connection gets the key of
the login of another, which gets nothing.

The messages to the gate and back may be handled in any order. A handler is one step. The logins have
numbers, which the code does not have. -/

namespace ChatShow.CSLoginService.LoginReply

open ChatShow.Lib ChatShow.Lib.Runs ChatShow.CSLoginService.UserLogin
  ChatShow.CSLoginService.LoginNames

/-! ### The state -/

/-- The netid of a connection has `TCPID_MASK` in it, so that it is not zero. -/
abbrev Connection := { netid : UInt64 // netid ≠ 0 }

/-- A message to the gate that is not answered yet. -/
structure Call where
  login : ℕ
  charid : UInt64
  name : List UInt8

/-- A reply, and the login whose result it is. -/
structure Reply where
  netid : UInt64
  login : ℕ
  name : List UInt8
  charid : UInt64
deriving DecidableEq

/-- The connection a login came from, and its name in small letters. -/
structure Login where
  netid : UInt64
  name : List UInt8
deriving DecidableEq

structure State where
  users : Users := []
  /-- The `_netid` of the gate, and whether there is such a connection. -/
  gate : UInt64 := 0
  up : Bool := false
  calls : List Call := []
  replies : List Reply := []
  logins : List Login := []

inductive Label
  | login (netid : Connection) (message : List UInt8) (row : Option Row) (cur : ℕ)
  /-- The gate answers a call, and its answer is handled. -/
  | gateInfo (i : ℕ) (g : GateInfo)
  | connect (netid : UInt64)
  /-- The connection to the gate is lost with what is on its way; `_netid` stays. -/
  | lost
  | sweep (i cur : ℕ)

/-! ### The handlers -/

/-- `gate_service_call`. -/
def State.gateServiceCall (s : State) (login : ℕ) (charid : UInt64) (name : List UInt8) : State :=
  if s.gate ≠ 0 ∧ s.up = true then { s with calls := s.calls ++ [⟨login, charid, name⟩] } else s

/-- A reply for a user that is not there has the character `-1`. -/
def State.outcome (s : State) (login : ℕ) (netid : UInt64) : Outcome → State
  | .call charid name => s.gateServiceCall login charid name
  | .notFound mess => { s with replies := s.replies ++ [⟨netid, login, mess, 0xFFFFFFFFFFFFFFFF⟩] }

/-- `pushmsg_byname`, which frees a message whose name does not pass the check, and the handler. -/
def State.login (s : State) (netid : Connection) (message : List UInt8) (row : Option Row)
    (cur : ℕ) : Option State :=
  let s' := { s with logins := s.logins ++ [⟨netid, toSmallwords message⟩] }
  if ¬ checkUsername message then some s'
  else (handleLogin s.users netid message row cur).map fun p =>
    { s' with users := p.1 }.outcome s.logins.length netid p.2

/-- `CONN_GATE_INFO`: the answer goes to the connection that the record of its name has. -/
def State.pass (s : State) (login : ℕ) (reply : GateReply) : State :=
  let p := popUserNetidByname s.users reply.name
  let s' := { s with users := p.2.2 }
  if 0 < p.1 then
    { s' with replies := s.replies ++ [⟨p.1, login, reply.name, (1 : UInt64) <<< 48 ||| p.2.1⟩] }
  else s'

def State.gateInfo (s : State) (i : ℕ) (g : GateInfo) : Option State :=
  match s.calls[i]? with
  | none => some s
  | some c => (gateAnswer g c.charid c.name).map fun reply =>
    { s with calls := s.calls.eraseIdx i }.pass c.login reply

def State.step (s : State) : Label → Option State
  | .login netid message row cur => s.login netid message row cur
  | .gateInfo i g => s.gateInfo i g
  | .connect netid => some { s with gate := netid, up := true }
  | .lost => some { s with up := false, calls := [] }
  | .sweep i cur => some { s with users := sweep i cur s.users }

/-! ### What is asked -/

/-- The replies that have been sent went to the connections of their logins, and each login has been
replied to once, or the gate has still to answer. -/
structure State.Delivered (s : State) : Prop where
  own : ∀ m ∈ s.replies, s.logins[m.login]? = some ⟨m.netid, m.name⟩
  once : ∀ r < s.logins.length,
    s.replies.countP (·.login = r) + s.calls.countP (·.login = r) = 1

/-- What a step has to meet. -/
def State.Ok (s : State) : Label → Prop
  | .login _ message row _ => Accepted message ∧
    if Known s.users message row then
      message.length ≤ 31 ∧ s.gate ≠ 0 ∧ s.up = true ∧
        ∀ c ∈ s.calls, c.name ≠ toSmallwords message
    else message.length ≤ 32
  | .gateInfo _ g => 0 < g.ip.length ∧ g.ip.length ≤ 31
  | .connect _ => True
  | .lost => s.calls = []
  | .sweep i cur => ∀ c ∈ s.calls, ∀ u ∈ s.users.get c.name, isUserTimeout i cur u = false

instance (s : State) : ∀ a, Decidable (s.Ok a)
  | .login .. => inferInstanceAs (Decidable (_ ∧ ite ..))
  | .gateInfo .. => inferInstanceAs (Decidable (_ ∧ _))
  | .connect _ => inferInstanceAs (Decidable True)
  | .lost => decidable_of_iff (s.calls.isEmpty = true) List.isEmpty_iff
  | .sweep i cur => inferInstanceAs
    (Decidable (∀ c ∈ s.calls, ∀ u ∈ s.users.get c.name, isUserTimeout i cur u = false))

/-! ### The invariant -/

/-- The record of each login that waits for the gate has its connection, and no other login waits
under the name. -/
structure State.Inv (s : State) : Prop extends s.Delivered where
  pending : ∀ c ∈ s.calls, ∃ u,
    s.users.get c.name = some u ∧ s.logins[c.login]? = some ⟨u.netid, c.name⟩
  name : ∀ c ∈ s.calls, checkUsername c.name = true ∧ c.name.length ≤ 31
  nodup : (s.calls.map (·.name)).Nodup
  netid : ∀ l ∈ s.logins, l.netid ≠ 0

theorem inv_init : State.Inv {} where
  own _ hm := by cases hm
  once _ hr := by cases hr
  pending _ hc := by cases hc
  name _ hc := by cases hc
  nodup := List.nodup_nil
  netid _ hl := by cases hl

variable {s : State} {g : GateInfo}

namespace State.Inv

/-- The number of the next login is not used yet. -/
theorem fresh (h : s.Inv) : s.replies.countP (·.login = s.logins.length) = 0 ∧
    s.calls.countP (·.login = s.logins.length) = 0 := by
  constructor
  · refine List.countP_eq_zero.mpr fun m hm => ?_
    have hlt := (List.getElem?_eq_some_iff.mp (h.own m hm)).1
    simpa using Nat.ne_of_lt hlt
  · refine List.countP_eq_zero.mpr fun c hc => ?_
    obtain ⟨u, -, hl⟩ := h.pending c hc
    have hlt := (List.getElem?_eq_some_iff.mp hl).1
    simpa using Nat.ne_of_lt hlt

/-- The replies and the calls of a login, and one more for the next login. -/
theorem once_succ (h : s.Inv) {r : ℕ} (hr : r < s.logins.length + 1) :
    s.replies.countP (·.login = r) + s.calls.countP (·.login = r) +
      (if s.logins.length = r then 1 else 0) = 1 := by
  obtain hlt | rfl := Nat.lt_succ_iff_lt_or_eq.mp hr
  · rw [if_neg (Nat.ne_of_gt hlt), h.once r hlt]
  · rw [h.fresh.1, h.fresh.2, if_pos rfl]

/-- What the logins before it have is kept when there is a new one. -/
theorem getElem?_logins {r : ℕ} {l l' : Login} (hl : s.logins[r]? = some l) :
    (s.logins ++ [l'])[r]? = some l := by
  have hlt := (List.getElem?_eq_some_iff.mp hl).1
  rw [List.getElem?_append_left hlt]
  exact hl

/-- A login that asks the gate. -/
theorem call (h : s.Inv) {users' : Users} {netid : Connection} {charid : UInt64}
    {name : List UInt8} (hname : checkUsername name = true) (hl : name.length ≤ 31)
    (hfree : ∀ c ∈ s.calls, c.name ≠ name)
    (hrec : ∃ u, users'.get name = some u ∧ u.netid = netid)
    (hother : ∀ a ≠ name, users'.get a = s.users.get a) :
    State.Inv { s with
      users := users', calls := s.calls ++ [⟨s.logins.length, charid, name⟩]
      logins := s.logins ++ [⟨netid, name⟩] } where
  own m hm := getElem?_logins (h.own m hm)
  once r hr := by
    have := h.once_succ (by simpa using hr)
    simpa [List.countP_append, List.countP_singleton, Nat.add_assoc] using this
  pending c hc := by
    obtain hc | rfl := List.mem_append.mp hc |>.imp_right List.mem_singleton.mp
    · obtain ⟨u, hg, hlog⟩ := h.pending c hc
      exact ⟨u, (hother _ (hfree c hc)).trans hg, getElem?_logins hlog⟩
    · obtain ⟨u, hg, hnet⟩ := hrec
      exact ⟨u, hg, by simp [hnet]⟩
  name c hc := by
    obtain hc | rfl := List.mem_append.mp hc |>.imp_right List.mem_singleton.mp
    · exact h.name c hc
    · exact ⟨hname, hl⟩
  nodup := by
    rw [List.map_append]
    refine List.nodup_append.mpr ⟨h.nodup, List.nodup_singleton _, fun a ha b hb => ?_⟩
    obtain ⟨c, hc, rfl⟩ := List.mem_map.mp ha
    rw [List.map_singleton, List.mem_singleton] at hb
    rw [hb]
    exact hfree c hc
  netid l hl' := by
    obtain hl' | rfl := List.mem_append.mp hl' |>.imp_right List.mem_singleton.mp
    · exact h.netid l hl'
    · exact netid.2

/-- A login that is answered at once. -/
theorem notFound (h : s.Inv) {netid : Connection} {name : List UInt8} {charid : UInt64} :
    State.Inv { s with
      replies := s.replies ++ [⟨netid, s.logins.length, name, charid⟩]
      logins := s.logins ++ [⟨netid, name⟩] } where
  own m hm := by
    obtain hm | rfl := List.mem_append.mp hm |>.imp_right List.mem_singleton.mp
    · exact getElem?_logins (h.own m hm)
    · simp
  once r hr := by
    have := h.once_succ (by simpa using hr)
    simpa [List.countP_append, List.countP_singleton, Nat.add_right_comm] using this
  pending c hc := by
    obtain ⟨u, hg, hlog⟩ := h.pending c hc
    exact ⟨u, hg, getElem?_logins hlog⟩
  name := h.name
  nodup := h.nodup
  netid l hl := by
    obtain hl | rfl := List.mem_append.mp hl |>.imp_right List.mem_singleton.mp
    · exact h.netid l hl
    · exact netid.2

/-- The answer to the call `c`, of a list that has it and the calls `l`. -/
theorem pass {c : Call} {l : List Call} (h : s.Inv) (hp : (c :: l).Perm s.calls) :
    State.Inv ({ s with calls := l }.pass c.login (replyOf g c.name)) := by
  obtain ⟨u, hg, hlog⟩ := h.pending c (hp.subset List.mem_cons_self)
  have hnet : 0 < u.netid := UInt64.pos_iff_ne_zero.mpr (h.netid _ (List.mem_of_getElem? hlog))
  have hpop := popUserNetidByname_of_get (h.name c (hp.subset List.mem_cons_self)).1 hg
  unfold State.pass
  rw [show (replyOf g c.name).name = c.name from rfl, hpop]
  dsimp only
  rw [if_pos hnet]
  have hnodup := (hp.map (·.name)).nodup_iff.mpr h.nodup
  rw [List.map_cons, List.nodup_cons] at hnodup
  refine ⟨⟨fun m hm => ?_, fun r hr => ?_⟩, fun d hd => ?_, fun d hd => ?_, hnodup.2, h.netid⟩
  · obtain hm | rfl := List.mem_append.mp hm |>.imp_right List.mem_singleton.mp
    · exact h.own m hm
    · exact hlog
  · have := h.once r hr
    rw [← hp.countP_eq, List.countP_cons] at this
    rw [List.countP_append, List.countP_singleton]
    dsimp only
    omega
  · obtain ⟨v, hv, hlog'⟩ := h.pending d (hp.subset (List.mem_cons_of_mem _ hd))
    refine ⟨v, ?_, hlog'⟩
    have hne : d.name ≠ c.name := fun he => hnodup.1 (by rw [← he]; exact List.mem_map_of_mem hd)
    rw [Users.get_del hne]
    exact hv
  · exact h.name d (hp.subset (List.mem_cons_of_mem _ hd))

end State.Inv

/-! ### The runs -/

theorem inv_login (h : s.Inv) {netid : Connection} {message : List UInt8} {row : Option Row} {cur : ℕ}
    (hok : s.Ok (.login netid message row cur)) :
    ∃ s', s.login netid message row cur = some s' ∧ s'.Inv := by
  obtain ⟨hacc, hcond⟩ := hok
  have hn := not_mem_toSmallwords hacc
  unfold State.login
  rw [if_neg (not_not_intro hacc.2.2)]
  split_ifs at hcond with hk
  · obtain ⟨hl, hgate, hup, hfree⟩ := hcond
    have hl33 : message.length < userNameSize := Nat.lt_of_le_of_lt hl (by decide)
    obtain ⟨users', charid, hcall⟩ := (handleLogin_eq hn hl33 s.users netid row cur).1 hk
    obtain ⟨-, ⟨u, hg, hnet, -⟩, hother⟩ := handleLogin_call hn hl33 hcall
    refine ⟨_, by rw [hcall]; rfl, ?_⟩
    dsimp only [State.outcome, State.gateServiceCall]
    rw [if_pos ⟨hgate, hup⟩]
    exact h.call (checkUsername_toSmallwords hacc.2.2) (by rwa [length_toSmallwords]) hfree
      ⟨u, hg, hnet⟩ hother
  · have hl33 : message.length < userNameSize := Nat.lt_succ_of_le hcond
    refine ⟨_, by rw [(handleLogin_eq hn hl33 s.users netid row cur).2 hk]; rfl, ?_⟩
    exact h.notFound

theorem inv_gateInfo (h : s.Inv) {i : ℕ} {g : GateInfo} (hok : s.Ok (.gateInfo i g)) :
    ∃ s', s.gateInfo i g = some s' ∧ s'.Inv := by
  unfold State.gateInfo
  cases hc : s.calls[i]? with
  | none => exact ⟨s, rfl, h⟩
  | some c =>
    obtain ⟨hi, rfl⟩ := List.getElem?_eq_some_iff.mp hc
    obtain ⟨hname, hl⟩ := h.name s.calls[i] (List.getElem_mem hi)
    have hpos : 0 < s.calls[i].name.length :=
      List.length_pos_of_ne_nil (of_decide_eq_true hname).1
    have hans := gateAnswer_eq (g := g) s.calls[i].charid (not_mem_zero hname)
      (Nat.lt_succ_of_le hl) hpos
    rw [if_pos ⟨hok.1, Nat.lt_succ_of_le hok.2⟩] at hans
    dsimp only
    rw [hans]
    exact ⟨_, rfl, h.pass (List.getElem_cons_eraseIdx_perm hi)⟩

/-- **What a step that meets the condition keeps.** -/
theorem inv_step (h : s.Inv) (a : Label) (hok : s.Ok a) : ∃ s', s.step a = some s' ∧ s'.Inv := by
  cases a with
  | login => exact inv_login h hok
  | gateInfo => exact inv_gateInfo h hok
  | connect => exact ⟨_, rfl, ⟨h.own, h.once⟩, h.pending, h.name, h.nodup, h.netid⟩
  | lost =>
    have hnil : s.calls = [] := hok
    have h' := h
    rw [show s = { s with calls := [] } from by rw [← hnil]] at h'
    exact ⟨_, rfl, ⟨h'.own, h'.once⟩, h'.pending, h'.name, h'.nodup, h'.netid⟩
  | sweep =>
    refine ⟨_, rfl, ⟨h.own, h.once⟩, fun c hc => ?_, h.name, h.nodup, h.netid⟩
    obtain ⟨u, hg, hlog⟩ := h.pending c hc
    exact ⟨u, Users.get_sweep hg (hok c hc u hg), hlog⟩

/-- **Where no two logins of one name wait for the gate at a time**, and names, gate and sweeps meet
the rest of the condition, every login is answered once, to its own connection. -/
theorem delivered {l : List Label} (h : Along State.step State.Ok {} l) :
    ∃ s, run State.step {} l = some s ∧ s.Delivered := by
  obtain ⟨s, hs, hinv⟩ := run_total_along (fun s a hi hok => inv_step hi a hok) h inv_init
  exact ⟨s, hs, hinv.toDelivered⟩

/-! ### Two connections and one name -/

/-- Two connections log in as one user, and the gate answers both. -/
def sameName : List Label :=
  [.connect 9, .login ⟨1, by decide⟩ [97, 100, 109, 105, 110] (some { charID := 7 }) 0,
    .login ⟨2, by decide⟩ [97, 100, 109, 105, 110] (some { charID := 7 }) 0,
    .gateInfo 0 localGate, .gateInfo 0 localGate]

/-- The second connection gets the reply to the first login, and the second login gets none. -/
theorem not_delivered : ∃ s, run State.step {} sameName = some s ∧
    s.replies.map (fun m => (m.netid, m.login)) = [(2, 0)] ∧ s.calls.length = 0 ∧
    ¬ s.Delivered := by
  obtain ⟨s, hs⟩ := Option.isSome_iff_exists.mp
    (by decide +kernel : (run State.step {} sameName).isSome)
  have hreplies : (run State.step {} sameName).map State.replies =
      some [⟨2, 0, [97, 100, 109, 105, 110], (1 : UInt64) <<< 48 ||| 7⟩] := by decide +kernel
  have hlogins : (run State.step {} sameName).map (fun s => s.logins[0]?) =
      some (some ⟨1, [97, 100, 109, 105, 110]⟩) := by decide +kernel
  have hcalls : (run State.step {} sameName).map (fun s => s.calls.length) = some 0 := by
    decide +kernel
  rw [hs, Option.map_some, Option.some.injEq] at hreplies hlogins hcalls
  refine ⟨s, hs, by rw [hreplies]; rfl, hcalls, fun hd => ?_⟩
  have hown := hd.own _ (by rw [hreplies]; exact List.mem_singleton_self _)
  rw [hlogins] at hown
  cases hown

/-- One login is answered before the next. -/
theorem delivered_in_turn : ∃ s, run State.step {} [.connect 9,
    .login ⟨1, by decide⟩ [97, 100, 109, 105, 110] (some {}) 0, .gateInfo 0 localGate,
    .login ⟨2, by decide⟩ [97, 100, 109, 105, 110] (some {}) 0, .gateInfo 0 localGate] = some s ∧
    s.Delivered :=
  delivered (by decide +kernel)

end ChatShow.CSLoginService.LoginReply
