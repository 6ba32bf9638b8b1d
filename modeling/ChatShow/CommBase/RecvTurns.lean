import ChatShow.CommBase.Segmentation
import Mathlib.Logic.Relation

/-! # The turns of the receiving loop

`turn` is one turn of the loop of `Recv(vec)` with all that it adds up and copies, and `recvPass` is
those turns one after the other (`recvPass_turn`). The cursor stays in what has been received, each
turn takes a header off and each copy is in range, but the sum of the length and the size of a header
overflows for a length close to `INT_MAX` (`turns_safe_iff`). A packet that the loop takes may be
longer than a content that `SetContent` takes, and is then delivered without its content
(`turns_intact_iff`). -/

namespace ChatShow.CommBase.RecvTurns

open ChatShow.Lib.Cells ChatShow.CommBase.NetWorkConfig ChatShow.CommBase.Util
open ChatShow.CommBase.MessageManager ChatShow.CommBase.SessionRecv
open ChatShow.CommBase.Segmentation (toInt_sub_16 addMessage_eq_zero gameServer idle chat)

/-! ### A turn -/

/-- A place of the loop: the packets up to `tmpHead` have been handled. -/
structure Cursor where
  session : Session
  tmpHead : ℕ
  nLeftSize : ℕ

/-- A copy from the receive buffer to a place that has `room`. -/
structure Copy where
  src : ℕ
  size : ℤ
  room : ℤ

/-- What a turn adds up, copies and puts into the queue, and where it leads: to the next turn, or to the
end of the pass (`none` is a fault). -/
structure Turn where
  sums : List ℤ := []
  copies : List Copy := []
  msgs : List Message := []
  next : Option Cursor := none
  exit : Option (Bool × Session) := none

/-- A header that does not pass the check with which the loop begins. -/
def Bad (head : packetHeader) : Prop :=
  head.remoteID < 0 ∨ head.length < 0 ∨ head.remoteType ≥ eMax ∨ head.localType ≥ eMax ∨
    head.messageType > SystemMessage

instance (head : packetHeader) : Decidable (Bad head) :=
  inferInstanceAs (Decidable (_ ∨ _ ∨ _ ∨ _ ∨ _))

/-- The session after a header that is refused. -/
def refuse (s : Session) : Option (Bool × Session) :=
  if s.remoteType = eClient then some (true, s) else some (false, { s with dwRecvPos := 0 })

/-- The copy of `keepRest`, where `SafeMemmove` makes it. -/
def keepCopies (tmpHead nLeftSize : ℕ) : List Copy :=
  if dword (MAX_RECV_MSG_SIZE - nLeftSize : ℤ) < dword nLeftSize then []
  else [⟨tmpHead, nLeftSize, MAX_RECV_MSG_SIZE⟩]

/-- The sums of `SetContent`, and its copy into a block that is made larger before. -/
def contentSums (len : ℤ) : List ℤ :=
  if len + HEADER_LENGTH + 16 > MAX_MSG_PACKET_SIZE then [len + HEADER_LENGTH + 16]
  else [len + HEADER_LENGTH + 16, len + 16]

def contentCopies (tmpHead : ℕ) (len : ℤ) : List Copy :=
  if len + HEADER_LENGTH + 16 > MAX_MSG_PACKET_SIZE then []
  else [⟨tmpHead + HEADER_LENGTH, len,
    if len + 16 > MAX_RECV_MSG_CONTENT_SIZE then len + 16 else MAX_RECV_MSG_CONTENT_SIZE⟩]

variable (env : Env)

namespace Cursor

variable (c : Cursor)

def head : packetHeader :=
  (packetHeader.decode (slice c.session.bufRecv c.tmpHead HEADER_LENGTH)).toBigEndian

/-- The size of the packet as the header has it. -/
def sum : ℤ := c.head.length.toInt + HEADER_LENGTH

/-- The header is for this process, with the security of the session, so that `SetContent` is called. -/
def Addressed : Prop :=
  c.head.remoteID = env.local_id_ ∧ c.head.remoteType = env.local_type_ ∧
    c.head.security = c.session.security

instance : Decidable (c.Addressed env) := inferInstanceAs (Decidable (_ ∧ _ ∧ _))

/-- What the packet at the cursor becomes. -/
def handled : Option (Peer × List Message) :=
  c.session.toPeer.handlePacket env c.head (shift c.session.bufRecv (c.tmpHead + HEADER_LENGTH))

/-- The cursor behind the packet. -/
def behind (p : Peer) : Cursor where
  session := { c.session with toPeer := p, recvCount := c.session.recvCount + 1 }
  tmpHead := c.tmpHead + (HEADER_LENGTH + c.head.length.toInt.toNat)
  nLeftSize := c.nLeftSize - (HEADER_LENGTH + c.head.length.toInt.toNat)

/-- A turn whose packet is there as a whole. -/
def packetTurn (t : Turn) : Turn :=
  match c.handled env with
  | none => t
  | some (p, msgs) =>
    if (c.behind p).nLeftSize ≤ 0 then
      { t with msgs := msgs, exit := some (false, { (c.behind p).session with dwRecvPos := 0 }) }
    else { t with msgs := msgs, next := some (c.behind p) }

/-- A turn of the loop. -/
def turn : Turn :=
  if c.nLeftSize < HEADER_LENGTH then
    { copies := keepCopies c.tmpHead c.nLeftSize
      exit := some (false, c.session.keepRest c.tmpHead c.nLeftSize) }
  else
    let t : Turn := { copies := [⟨c.tmpHead, HEADER_LENGTH, HEADER_LENGTH⟩] }
    if Bad c.head then { t with exit := refuse c.session }
    else
      let t := { t with sums := [c.sum] }
      if 2147483648 ≤ c.sum then t
      else if MAX_MSG_PACKET_SIZE < c.sum then { t with exit := refuse c.session }
      else if c.nLeftSize < HEADER_LENGTH + c.head.length.toInt.toNat then
        { t with
          copies := t.copies ++ keepCopies c.tmpHead c.nLeftSize
          exit := some (false, c.session.keepRest c.tmpHead c.nLeftSize) }
      else if c.Addressed env then
        c.packetTurn env { t with
          sums := t.sums ++ contentSums c.head.length.toInt
          copies := t.copies ++ contentCopies c.tmpHead c.head.length.toInt }
      else c.packetTurn env t

end Cursor

/-- The cursors that a pass of `Recv(vec)` comes to. -/
def Reached (s : Session) : Cursor → Prop :=
  Relation.ReflTransGen (fun c c' => (c.turn env).next = some c') ⟨s, 0, s.dwRecvPos⟩

/-! ### What is asked -/

/-- The sums of a turn are `int`s; the cursor is in what has been received; the turn goes on behind a
header, or is the last one; and what is copied has been received and fits. -/
structure Safe (s : Session) (c : Cursor) : Prop where
  sums : ∀ x ∈ (c.turn env).sums, -2147483648 ≤ x ∧ x < 2147483648
  cursor : c.tmpHead + c.nLeftSize = s.dwRecvPos
  next : ∀ c' ∈ (c.turn env).next, c.tmpHead + HEADER_LENGTH ≤ c'.tmpHead
  copies : ∀ k ∈ (c.turn env).copies, 0 ≤ k.size ∧ k.src + k.size ≤ s.dwRecvPos ∧ k.size ≤ k.room

/-! ### The loop is its turns -/

variable {env} {c c' : Cursor} {s : Session}

theorem packetTurn_eq {t : Turn} (fuel : ℕ) (vec : List Message) (hx : t.next = none)
    (he : t.exit = none) :
    ((c.handled env).bind fun r =>
      if (c.behind r.1).nLeftSize ≤ 0 then
        some (false, { (c.behind r.1).session with dwRecvPos := 0 }, vec ++ r.2)
      else recvPass env fuel (c.behind r.1).session (c.behind r.1).tmpHead (c.behind r.1).nLeftSize
        (vec ++ r.2)) =
    match (c.packetTurn env t).next with
    | some c' =>
      recvPass env fuel c'.session c'.tmpHead c'.nLeftSize (vec ++ (c.packetTurn env t).msgs)
    | none =>
      (c.packetTurn env t).exit.map fun r => (r.1, r.2, vec ++ (c.packetTurn env t).msgs) := by
  unfold Cursor.packetTurn
  cases c.handled env with
  | none =>
    dsimp only
    rw [hx, he]
    rfl
  | some r =>
    rw [Option.bind_some]
    dsimp only
    split_ifs with hz
    · dsimp only
      rw [hx]
      rfl
    · rfl

/-- **`recvPass` takes a turn, and goes on where it leads.** -/
theorem recvPass_turn (fuel : ℕ) (c : Cursor) (vec : List Message) :
    recvPass env (fuel + 1) c.session c.tmpHead c.nLeftSize vec =
      match (c.turn env).next with
      | some c' =>
        recvPass env fuel c'.session c'.tmpHead c'.nLeftSize (vec ++ (c.turn env).msgs)
      | none => (c.turn env).exit.map fun r => (r.1, r.2, vec ++ (c.turn env).msgs) := by
  have hhead : (packetHeader.decode (slice c.session.bufRecv c.tmpHead HEADER_LENGTH)).toBigEndian =
      c.head := rfl
  have hsum : c.head.length.toInt + (HEADER_LENGTH : ℤ) = c.sum := rfl
  rw [recvPass, hhead]
  unfold Cursor.turn
  by_cases hn : c.nLeftSize < HEADER_LENGTH
  · simp only [if_pos hn, Option.map_some, List.append_nil]
  rw [if_neg hn, if_neg hn]
  dsimp only
  rw [hsum]
  by_cases hbad : Bad c.head
  · rw [if_pos hbad]
    unfold Bad at hbad
    rw [if_pos hbad]
    unfold refuse
    split_ifs <;> simp
  rw [if_neg hbad]
  unfold Bad at hbad
  rw [if_neg hbad]
  by_cases hover : 2147483648 ≤ c.sum
  · rw [if_pos hover, if_pos hover]
    rfl
  rw [if_neg hover, if_neg hover]
  by_cases hlong : (MAX_MSG_PACKET_SIZE : ℤ) < c.sum
  · rw [if_pos hlong, if_pos hlong]
    unfold refuse
    split_ifs <;> simp
  rw [if_neg hlong, if_neg hlong]
  by_cases hpart : c.nLeftSize < HEADER_LENGTH + c.head.length.toInt.toNat
  · simp only [if_pos hpart, Option.map_some, List.append_nil]
  rw [if_neg hpart, if_neg hpart]
  by_cases haddr : c.Addressed env
  · rw [if_pos haddr]
    exact packetTurn_eq fuel vec rfl rfl
  · rw [if_neg haddr]
    exact packetTurn_eq fuel vec rfl rfl

/-! ### What a turn does -/

/-- The packet at the cursor is one that the loop takes, and is there as a whole. -/
structure Cursor.Whole (c : Cursor) : Prop where
  header : HEADER_LENGTH ≤ c.nLeftSize
  good : ¬ Bad c.head
  packet : c.sum ≤ MAX_MSG_PACKET_SIZE
  left : HEADER_LENGTH + c.head.length.toInt.toNat ≤ c.nLeftSize

/-- A header whose length is added to its size. -/
theorem length_nonneg (h : ¬ Bad c.head) : 0 ≤ c.head.length.toInt := by
  have hlt : ¬ c.head.length < 0 := fun hl => h (Or.inr (Or.inl hl))
  rw [Int32.lt_iff_toInt_lt] at hlt
  have h0 : (0 : Int32).toInt = 0 := by decide
  omega

@[simp] theorem sums_packetTurn (t : Turn) : (c.packetTurn env t).sums = t.sums := by
  unfold Cursor.packetTurn
  split
  · rfl
  · split_ifs <;> rfl

@[simp] theorem copies_packetTurn (t : Turn) : (c.packetTurn env t).copies = t.copies := by
  unfold Cursor.packetTurn
  split
  · rfl
  · split_ifs <;> rfl

/-- The sums and the copies before a packet is handled. -/
def Cursor.taken (env : Env) (c : Cursor) : Turn :=
  if c.Addressed env then
    { sums := [c.sum] ++ contentSums c.head.length.toInt
      copies := [⟨c.tmpHead, HEADER_LENGTH, HEADER_LENGTH⟩] ++
        contentCopies c.tmpHead c.head.length.toInt }
  else { sums := [c.sum], copies := [⟨c.tmpHead, HEADER_LENGTH, HEADER_LENGTH⟩] }

/-- **The turns there are**: with no header left, with a bad header, with a packet that is refused or is
not there as a whole, and with a whole packet. -/
theorem turn_cases (env : Env) (c : Cursor) :
    (∃ exit, c.turn env = { copies := keepCopies c.tmpHead c.nLeftSize, exit := exit }) ∨
    (HEADER_LENGTH ≤ c.nLeftSize ∧ ∃ exit, c.turn env =
      { copies := [⟨c.tmpHead, HEADER_LENGTH, HEADER_LENGTH⟩], exit := exit }) ∨
    ((HEADER_LENGTH ≤ c.nLeftSize ∧ ¬ Bad c.head) ∧
      ∃ rest exit, (∀ k ∈ rest, k ∈ keepCopies c.tmpHead c.nLeftSize) ∧ c.turn env =
        { sums := [c.sum], copies := [⟨c.tmpHead, HEADER_LENGTH, HEADER_LENGTH⟩] ++ rest, exit := exit }) ∨
    (c.Whole ∧ c.turn env = c.packetTurn env (c.taken env)) := by
  unfold Cursor.turn
  by_cases hn : c.nLeftSize < HEADER_LENGTH
  · rw [if_pos hn]
    exact Or.inl ⟨_, rfl⟩
  have hle := Nat.not_lt.mp hn
  rw [if_neg hn]
  dsimp only
  by_cases hbad : Bad c.head
  · rw [if_pos hbad]
    exact Or.inr (Or.inl ⟨hle, _, rfl⟩)
  rw [if_neg hbad]
  by_cases hover : 2147483648 ≤ c.sum
  · rw [if_pos hover]
    exact Or.inr (Or.inr (Or.inl ⟨⟨hle, hbad⟩, [], _, List.forall_mem_nil _, rfl⟩))
  rw [if_neg hover]
  by_cases hlong : (MAX_MSG_PACKET_SIZE : ℤ) < c.sum
  · rw [if_pos hlong]
    exact Or.inr (Or.inr (Or.inl ⟨⟨hle, hbad⟩, [], _, List.forall_mem_nil _, rfl⟩))
  rw [if_neg hlong]
  by_cases hpart : c.nLeftSize < HEADER_LENGTH + c.head.length.toInt.toNat
  · rw [if_pos hpart]
    exact Or.inr (Or.inr (Or.inl ⟨⟨hle, hbad⟩, _, _, fun k hk => hk, rfl⟩))
  rw [if_neg hpart]
  refine Or.inr (Or.inr (Or.inr ⟨⟨hle, hbad, Int.not_lt.mp hlong, Nat.not_lt.mp hpart⟩, ?_⟩))
  unfold Cursor.taken
  split_ifs <;> rfl

theorem turn_of_whole (h : c.Whole) : c.turn env = c.packetTurn env (c.taken env) := by
  have hM : (MAX_MSG_PACKET_SIZE : ℤ) = 65536 := rfl
  have hp := h.packet
  unfold Cursor.turn Cursor.taken
  rw [if_neg (Nat.not_lt.mpr h.header)]
  dsimp only
  rw [if_neg h.good, if_neg (by omega), if_neg (by omega), if_neg (Nat.not_lt.mpr h.left)]
  split_ifs <;> rfl

/-- A turn without a whole packet is the last one, and puts nothing into the queue. -/
theorem turn_of_not_whole (h : ¬ c.Whole) : (c.turn env).next = none ∧ (c.turn env).msgs = [] := by
  obtain ⟨_, ht⟩ | ⟨-, _, ht⟩ | ⟨-, _, _, -, ht⟩ | ⟨hw, -⟩ := turn_cases env c
  · rw [ht]
    exact ⟨rfl, rfl⟩
  · rw [ht]
    exact ⟨rfl, rfl⟩
  · rw [ht]
    exact ⟨rfl, rfl⟩
  · exact absurd hw h

/-- Where a turn leads. -/
theorem next_eq_some (h : (c.turn env).next = some c') :
    c.Whole ∧ ∃ p msgs, c.handled env = some (p, msgs) ∧ c' = c.behind p := by
  by_cases hw : c.Whole
  swap
  · rw [(turn_of_not_whole hw).1] at h
    cases h
  refine ⟨hw, ?_⟩
  rw [turn_of_whole hw] at h
  have hnone : (c.taken env).next = none := by
    unfold Cursor.taken
    split_ifs <;> rfl
  unfold Cursor.packetTurn at h
  split at h
  · rw [hnone] at h
    cases h
  next p msgs hh =>
    split_ifs at h with hz
    · change (c.taken env).next = some c' at h
      rw [hnone] at h
      cases h
    · cases h
      exact ⟨p, msgs, hh, rfl⟩

/-- What a turn puts into the queue. -/
theorem mem_msgs {m : Message} :
    m ∈ (c.turn env).msgs ↔ c.Whole ∧ ∃ p msgs, c.handled env = some (p, msgs) ∧ m ∈ msgs := by
  by_cases hw : c.Whole
  swap
  · rw [(turn_of_not_whole hw).2]
    exact ⟨fun h => absurd h List.not_mem_nil, fun h => absurd h.1 hw⟩
  rw [turn_of_whole hw, and_iff_right hw]
  have hnil : (c.taken env).msgs = [] := by
    unfold Cursor.taken
    split_ifs <;> rfl
  unfold Cursor.packetTurn
  split
  next hh =>
    rw [hnil, hh]
    exact ⟨fun h => absurd h List.not_mem_nil, fun ⟨p, msgs, h, _⟩ => by cases h⟩
  next p msgs hh =>
    rw [hh]
    have hiff : m ∈ msgs ↔ ∃ p' msgs', some (p, msgs) = some (p', msgs') ∧ m ∈ msgs' :=
      ⟨fun h => ⟨p, msgs, rfl, h⟩, fun ⟨p', msgs', he, h⟩ => by cases he; exact h⟩
    rw [← hiff]
    split_ifs <;> exact Iff.rfl

/-- **The cursor moves over what has been received**, and the buffer is not written on the way. -/
theorem Reached.cursor (h : Reached env s c) :
    c.tmpHead + c.nLeftSize = s.dwRecvPos ∧ c.session.bufRecv = s.bufRecv := by
  induction h with
  | refl => exact ⟨Nat.zero_add _, rfl⟩
  | tail _ hnext ih =>
    obtain ⟨hw, p, msgs, -, rfl⟩ := next_eq_some hnext
    have hleft := hw.left
    unfold Cursor.behind
    refine ⟨?_, ih.2⟩
    dsimp only
    omega

/-! ### Sums and copies -/

theorem mem_keepCopies {k : Copy} {tmpHead nLeftSize : ℕ} (h : k ∈ keepCopies tmpHead nLeftSize) :
    k = ⟨tmpHead, nLeftSize, MAX_RECV_MSG_SIZE⟩ := by
  unfold keepCopies at h
  split_ifs at h
  · cases h
  · exact List.mem_singleton.mp h

/-- A copy that a turn makes is that of the header, of the rest or of the content of a whole packet. -/
theorem mem_copies {k : Copy} (h : k ∈ (c.turn env).copies) :
    (HEADER_LENGTH ≤ c.nLeftSize ∧ k = ⟨c.tmpHead, HEADER_LENGTH, HEADER_LENGTH⟩) ∨
    k = ⟨c.tmpHead, c.nLeftSize, MAX_RECV_MSG_SIZE⟩ ∨
    (c.Whole ∧ k ∈ contentCopies c.tmpHead c.head.length.toInt) := by
  obtain ⟨_, ht⟩ | ⟨hle, _, ht⟩ | ⟨⟨hle, -⟩, rest, _, hrest, ht⟩ | ⟨hw, ht⟩ := turn_cases env c
  · rw [ht] at h
    exact Or.inr (Or.inl (mem_keepCopies h))
  · rw [ht] at h
    exact Or.inl ⟨hle, List.mem_singleton.mp h⟩
  · rw [ht] at h
    rcases List.mem_append.mp h with h | h
    · exact Or.inl ⟨hle, List.mem_singleton.mp h⟩
    · exact Or.inr (Or.inl (mem_keepCopies (hrest k h)))
  · rw [ht, copies_packetTurn] at h
    unfold Cursor.taken at h
    split_ifs at h
    · rcases List.mem_append.mp h with h | h
      · exact Or.inl ⟨hw.header, List.mem_singleton.mp h⟩
      · exact Or.inr (Or.inr ⟨hw, h⟩)
    · exact Or.inl ⟨hw.header, List.mem_singleton.mp h⟩

/-- A sum that a turn makes is that of the packet, or of the content of a whole packet. -/
theorem mem_sums {x : ℤ} (h : x ∈ (c.turn env).sums) :
    (HEADER_LENGTH ≤ c.nLeftSize ∧ ¬ Bad c.head) ∧
      (x = c.sum ∨ c.Whole ∧ x ∈ contentSums c.head.length.toInt) := by
  obtain ⟨_, ht⟩ | ⟨-, _, ht⟩ | ⟨hgood, _, _, -, ht⟩ | ⟨hw, ht⟩ := turn_cases env c
  · rw [ht] at h
    cases h
  · rw [ht] at h
    cases h
  · rw [ht] at h
    exact ⟨hgood, Or.inl (List.mem_singleton.mp h)⟩
  · refine ⟨⟨hw.header, hw.good⟩, ?_⟩
    rw [ht, sums_packetTurn] at h
    unfold Cursor.taken at h
    split_ifs at h
    · exact (List.mem_append.mp h).imp List.mem_singleton.mp fun h => ⟨hw, h⟩
    · exact Or.inl (List.mem_singleton.mp h)

/-- A header that passes the check is added up. -/
theorem sum_mem_sums (hle : HEADER_LENGTH ≤ c.nLeftSize) (hgood : ¬ Bad c.head) :
    c.sum ∈ (c.turn env).sums := by
  unfold Cursor.turn
  rw [if_neg (Nat.not_lt.mpr hle)]
  dsimp only
  rw [if_neg hgood]
  split_ifs
  · exact List.mem_singleton_self _
  · exact List.mem_singleton_self _
  · exact List.mem_singleton_self _
  · rw [sums_packetTurn]
    exact List.mem_cons_self
  · rw [sums_packetTurn]
    exact List.mem_singleton_self _

/-- The sums and the copy of a content that is there. -/
theorem contentSums_small {x : ℤ} (hw : c.Whole) (h : x ∈ contentSums c.head.length.toInt) :
    0 ≤ x ∧ x < 2147483648 := by
  have hp := hw.packet
  have hn := length_nonneg hw.good
  have hM : (MAX_MSG_PACKET_SIZE : ℤ) = 65536 := rfl
  have hH : (HEADER_LENGTH : ℤ) = 26 := rfl
  have hs : c.sum = c.head.length.toInt + HEADER_LENGTH := rfl
  unfold contentSums at h
  split_ifs at h
  · rw [List.mem_singleton] at h
    omega
  · simp only [List.mem_cons, List.not_mem_nil, or_false] at h
    omega

theorem contentCopies_fit {k : Copy} (hw : c.Whole)
    (h : k ∈ contentCopies c.tmpHead c.head.length.toInt) :
    0 ≤ k.size ∧ k.src + k.size ≤ (c.tmpHead + c.nLeftSize : ℕ) ∧ k.size ≤ k.room := by
  have hl := hw.left
  have hn := length_nonneg hw.good
  have hC : (MAX_RECV_MSG_CONTENT_SIZE : ℤ) = 1024 := rfl
  unfold contentCopies at h
  split_ifs at h with h1 h2
  · cases h
  · rw [List.mem_singleton.mp h]
    dsimp only
    omega
  · rw [List.mem_singleton.mp h]
    dsimp only
    omega

/-- **The arithmetic of a pass is safe just where no header that it reads, and that passes its check, has
a length from `INT_MAX - 25` on.** -/
theorem turns_safe_iff (env : Env) {s : Session} (hs : s.dwRecvPos ≤ MAX_RECV_MSG_SIZE) :
    (∀ c, Reached env s c → Safe env s c) ↔
      ∀ c, Reached env s c → HEADER_LENGTH ≤ c.nLeftSize → ¬ Bad c.head →
        c.head.length.toInt < 2147483622 := by
  have hH : (HEADER_LENGTH : ℤ) = 26 := rfl
  constructor
  · intro hall c hc hle hgood
    have := ((hall c hc).sums c.sum (sum_mem_sums hle hgood)).2
    unfold Cursor.sum at this
    omega
  · intro hcond c hc
    have hcur := hc.cursor.1
    refine ⟨fun x hx => ?_, hcur, fun c' hnext => ?_, fun k hk => ?_⟩
    · obtain ⟨⟨hle, hgood⟩, rfl | ⟨hw, hx⟩⟩ := mem_sums hx
      · have h1 := hcond c hc hle hgood
        have h2 := length_nonneg hgood
        unfold Cursor.sum
        omega
      · have := contentSums_small hw hx
        omega
    · obtain ⟨-, p, msgs, -, rfl⟩ := next_eq_some hnext
      unfold Cursor.behind
      dsimp only
      omega
    · rw [← hcur]
      obtain ⟨hle, rfl⟩ | rfl | ⟨hw, hk⟩ := mem_copies hk
      · dsimp only
        omega
      · dsimp only
        omega
      · exact contentCopies_fit hw hk

/-- A pass over one packet has one turn. -/
theorem reached_start {s : Session} (h : ((Cursor.mk s 0 s.dwRecvPos).turn env).next = none)
    (hc : Reached env s c) : c = ⟨s, 0, s.dwRecvPos⟩ := by
  induction hc with
  | refl => rfl
  | tail _ hnext ih =>
    rw [ih, h] at hnext
    cases hnext

/-- A frame of three bytes. -/
theorem turns_safe_chat :
    Safe gameServer (idle.fill chat.bytes) ⟨idle.fill chat.bytes, 0, (idle.fill chat.bytes).dwRecvPos⟩ :=
  (turns_safe_iff gameServer (by decide)).mpr
    (fun c hc _ _ => by
      rw [reached_start (by decide +kernel) hc]
      decide +kernel) _ .refl

/-- A header whose length is `INT_MAX`. -/
def endless : packetHeader :=
  { chat.head with length := 2147483647 }

theorem turns_not_safe :
    Reached gameServer (idle.fill endless.encode) ⟨idle.fill endless.encode, 0, 26⟩ ∧
    (2147483673 : ℤ) ∈
      ((Cursor.mk (idle.fill endless.encode) 0 26).turn gameServer).sums ∧
    ¬ Safe gameServer (idle.fill endless.encode) ⟨idle.fill endless.encode, 0, 26⟩ := by
  have hsum : (2147483673 : ℤ) ∈
      ((Cursor.mk (idle.fill endless.encode) 0 26).turn gameServer).sums := by decide +kernel
  exact ⟨.refl, hsum, fun h => absurd (h.sums _ hsum).2 (by decide)⟩

/-! ### What is delivered -/

/-- The content of the packet, without the digest behind it. -/
def Cursor.payload (c : Cursor) : List UInt8 :=
  slice c.session.bufRecv (c.tmpHead + HEADER_LENGTH)
    (if c.head.security then c.head.length.toInt.toNat - 16 else c.head.length.toInt.toNat)

/-- `SetContent` took the content, and the message holds as many bytes as it says, those of the packet. -/
structure Intact (c : Cursor) (m : Message) : Prop where
  stored : c.head.length.toInt + HEADER_LENGTH + 16 ≤ MAX_MSG_PACKET_SIZE
  room : m.length.toInt ≤ m.capacity
  length : m.length.toInt = c.payload.length
  bytes : m.bytes = c.payload

/-- The message that a packet is read into. -/
def Cursor.fresh (env : Env) (c : Cursor) : Message :=
  (Message.new (env.malloc c.session.allocs) c.session.remoteID c.session.remoteType).setHead c.head

/-- The message of the packet before its digest is looked at. -/
def Cursor.filled (env : Env) (c : Cursor) : Option Message :=
  ((c.fresh env).setContent (shift c.session.bufRecv (c.tmpHead + HEADER_LENGTH))
    c.head.length).map fun m => { m with
      channelID := c.session.accSock, group := c.session.groupID
      loopIndex := c.session.flag / 256 % 256 }

theorem handled_eq (h : c.Addressed env) : c.handled env =
    (c.filled env).bind fun m => (m.unEncryptMessage env.md5).bind fun r =>
      if r.1 then
        let a := Peer.addMessage env { c.session.toPeer with allocs := c.session.allocs + 1 } r.2
        some (a.2, if a.1 = 0 then [r.2] else [])
      else some ({ c.session.toPeer with allocs := c.session.allocs + 1 }, []) := by
  unfold Cursor.handled Cursor.filled Cursor.fresh Peer.handlePacket
  dsimp only
  rw [Option.bind_map]
  exact if_pos h

theorem handled_of_not (h : ¬ c.Addressed env) :
    c.handled env = some ({ c.session.toPeer with allocs := c.session.allocs + 1 }, []) := by
  unfold Cursor.handled Peer.handlePacket
  exact if_neg h

/-- A message that is put into the queue. -/
theorem mem_handled {p : Peer} {msgs : List Message} {m : Message}
    (h : c.handled env = some (p, msgs)) (hm : m ∈ msgs) :
    c.Addressed env ∧ m.messageType ≠ ConnMessage ∧
      ∃ m₁, c.filled env = some m₁ ∧ m₁.unEncryptMessage env.md5 = some (true, m) := by
  by_cases ha : c.Addressed env
  swap
  · rw [handled_of_not ha] at h
    cases h
    cases hm
  rw [handled_eq ha] at h
  obtain ⟨m₁, hf, h⟩ := Option.bind_eq_some_iff.mp h
  obtain ⟨⟨ok, m₂⟩, hu, h⟩ := Option.bind_eq_some_iff.mp h
  dsimp only at h
  split_ifs at h with hok hz
  · cases h
    rw [List.mem_singleton.mp hm]
    exact ⟨ha, (addMessage_eq_zero _ _).mp hz, m₁, hf, hok ▸ hu⟩
  · cases h
    cases hm
  · cases h
    cases hm

/-- A content that `SetContent` takes. -/
theorem filled_of_stored (hw : c.Whole)
    (hl : c.head.length.toInt + HEADER_LENGTH + 16 ≤ MAX_MSG_PACKET_SIZE) :
    ∃ m, c.filled env = some m ∧ m.length = c.head.length ∧ m.security = c.head.security ∧
      m.length.toInt ≤ m.capacity ∧
      slice m.content 0 c.head.length.toInt.toNat =
        slice c.session.bufRecv (c.tmpHead + HEADER_LENGTH) c.head.length.toInt.toNat := by
  have hn := length_nonneg hw.good
  have hC : (MAX_RECV_MSG_CONTENT_SIZE : ℤ) = 1024 := rfl
  have hM : (MAX_MSG_PACKET_SIZE : ℤ) = 65536 := rfl
  have hno : ¬ (c.head.length.toInt < 0 ∨
      2147483648 ≤ c.head.length.toInt + HEADER_LENGTH + 16) := by omega
  unfold Cursor.filled Message.setContent
  rw [if_neg hno, if_neg (by omega), safeMemmove_of_le _ _ _ hn le_rfl (by omega), Option.map_some,
    Option.map_some]
  refine ⟨_, rfl, rfl, rfl, ?_, ?_⟩
  · dsimp only [Cursor.fresh, Message.setHead, Message.new]
    split_ifs <;> omega
  · have hslice := slice_store_same (c.fresh env).content 0
      (slice (shift c.session.bufRecv (c.tmpHead + HEADER_LENGTH)) 0 c.head.length.toInt.toNat)
    rw [length_slice, slice_shift, Nat.add_zero] at hslice
    dsimp only
    rw [slice_shift, Nat.add_zero]
    exact hslice

/-- A content that it rejects: the message keeps the length of the header. -/
theorem filled_of_rejected (hw : c.Whole)
    (hl : ¬ c.head.length.toInt + HEADER_LENGTH + 16 ≤ MAX_MSG_PACKET_SIZE) :
    ∃ m, c.filled env = some m ∧ m.length = c.head.length ∧ m.security = c.head.security ∧
      m.messageType = c.head.messageType ∧ m.capacity = MAX_RECV_MSG_CONTENT_SIZE := by
  have hn := length_nonneg hw.good
  have hp := hw.packet
  unfold Cursor.sum at hp
  have hM : (MAX_MSG_PACKET_SIZE : ℤ) = 65536 := rfl
  have hno : ¬ (c.head.length.toInt < 0 ∨
      2147483648 ≤ c.head.length.toInt + HEADER_LENGTH + 16) := by omega
  unfold Cursor.filled Message.setContent
  rw [if_neg hno, if_pos (by omega), Option.map_some]
  exact ⟨_, rfl, rfl, rfl, rfl, rfl⟩

/-- A content that was stored and has passed the check is delivered as it came. -/
theorem intact_of_stored {m₁ m : Message} (hw : c.Whole)
    (hl : c.head.length.toInt + HEADER_LENGTH + 16 ≤ MAX_MSG_PACKET_SIZE)
    (hf : c.filled env = some m₁) (hu : m₁.unEncryptMessage env.md5 = some (true, m)) :
    Intact c m := by
  obtain ⟨m', hf', hlen, hsec, hcap, hcontent⟩ := @filled_of_stored env c hw hl
  rw [hf] at hf'
  cases hf'
  have hn := length_nonneg hw.good
  unfold Message.unEncryptMessage at hu
  rw [hsec, hlen] at hu
  by_cases hs : c.head.security = true
  · rw [if_pos hs] at hu
    obtain ⟨bytes, hread, hu⟩ := Option.bind_eq_some_iff.mp hu
    obtain ⟨tail, -, hu⟩ := Option.bind_eq_some_iff.mp hu
    split_ifs at hu with hok
    swap
    · cases hu
    cases hu
    -- the digest was read, so that it is there
    have h16 : 16 ≤ c.head.length.toInt := by
      unfold Message.read? at hread
      split_ifs at hread with hr
      omega
    have hsub := toInt_sub_16 h16
    refine ⟨hl, ?_, ?_, ?_⟩
    · dsimp only
      rw [hsub]
      rw [hlen] at hcap
      omega
    · dsimp only [Cursor.payload]
      rw [if_pos hs, length_slice, hsub]
      omega
    · dsimp only [Cursor.payload, Message.bytes]
      have htake := congrArg (List.take (c.head.length.toInt.toNat - 16)) hcontent
      rw [take_slice, take_slice, Nat.min_eq_left (Nat.sub_le _ _)] at htake
      rw [if_pos hs, hsub, show (c.head.length.toInt - 16).toNat = c.head.length.toInt.toNat - 16 by omega]
      exact htake
  · rw [if_neg hs] at hu
    cases hu
    refine ⟨hl, hcap, ?_, ?_⟩
    · dsimp only [Cursor.payload]
      rw [if_neg hs, length_slice, hlen]
      omega
    · dsimp only [Cursor.payload, Message.bytes]
      rw [if_neg hs, hlen]
      exact hcontent

/-- A secured message whose content was rejected is read past its block. -/
theorem unEncrypt_rejected {m : Message} {md5 : MD5} (hs : m.security = true)
    (hl : ¬ m.length.toInt + HEADER_LENGTH + 16 ≤ MAX_MSG_PACKET_SIZE)
    (hc : m.capacity = MAX_RECV_MSG_CONTENT_SIZE) : m.unEncryptMessage md5 = none := by
  have hM : (MAX_MSG_PACKET_SIZE : ℤ) = 65536 := rfl
  have hH : (HEADER_LENGTH : ℤ) = 26 := rfl
  have hC : (MAX_RECV_MSG_CONTENT_SIZE : ℤ) = 1024 := rfl
  have hno : ¬ (0 ≤ (0 : ℤ) ∧ 0 ≤ m.length.toInt - 16 ∧ 0 + (m.length.toInt - 16) ≤ m.capacity) := by
    rw [hc]
    omega
  unfold Message.unEncryptMessage
  rw [if_pos hs]
  unfold Message.read?
  rw [if_neg hno]
  rfl

/-- **Each message that a pass delivers has the content of its packet just where no packet is handed on
whose content `SetContent` does not take**: one without a digest, longer than 65494 bytes. -/
theorem turns_intact_iff (env : Env) (s : Session) :
    (∀ c, Reached env s c → ∀ m ∈ (c.turn env).msgs, Intact c m) ↔
      ∀ c, Reached env s c → c.Whole → c.Addressed env → c.head.security = false →
        c.head.messageType ≠ ConnMessage →
        c.head.length.toInt + HEADER_LENGTH + 16 ≤ MAX_MSG_PACKET_SIZE := by
  constructor
  · intro hall c hc hw ha hs ht
    by_contra hl
    obtain ⟨m, hf, -, hsec, htype, -⟩ := @filled_of_rejected env c hw hl
    have hu : m.unEncryptMessage env.md5 = some (true, m) := by
      unfold Message.unEncryptMessage
      rw [hsec, hs, if_neg Bool.false_ne_true]
    have hadd : Peer.addMessage env { c.session.toPeer with allocs := c.session.allocs + 1 } m =
        (0, { c.session.toPeer with allocs := c.session.allocs + 1 }) := by
      unfold Peer.addMessage
      rw [htype, if_neg ht]
    have hmem : m ∈ (c.turn env).msgs := by
      refine mem_msgs.mpr ⟨hw, { c.session.toPeer with allocs := c.session.allocs + 1 }, [m], ?_,
        List.mem_singleton_self m⟩
      rw [handled_eq ha, hf, Option.bind_some, hu, Option.bind_some]
      dsimp only
      rw [hadd]
      rfl
    exact hl (hall c hc m hmem).stored
  · intro hcond c hc m hm
    obtain ⟨hw, p, msgs, hh, hm⟩ := mem_msgs.mp hm
    obtain ⟨ha, ht, m₁, hf, hu⟩ := mem_handled hh hm
    by_cases hl : c.head.length.toInt + HEADER_LENGTH + 16 ≤ MAX_MSG_PACKET_SIZE
    · exact intact_of_stored hw hl hf hu
    · exfalso
      obtain ⟨m', hf', hlen, hsec, htype, hcap⟩ := @filled_of_rejected env c hw hl
      rw [hf] at hf'
      cases hf'
      by_cases hs : c.head.security = true
      · rw [unEncrypt_rejected (hsec.trans hs) (by rw [hlen]; exact hl) hcap] at hu
        cases hu
      · unfold Message.unEncryptMessage at hu
        rw [hsec, if_neg hs] at hu
        cases hu
        exact hl (hcond c hc hw ha (Bool.not_eq_true _ ▸ hs) (htype ▸ ht))

/-- The header of a packet that fills the buffer. -/
def whole : packetHeader :=
  { chat.head with length := 65510 }

/-- A buffer that holds it with its content of zeros. -/
def wholeBuf : Session := { idle.fill whole.encode with dwRecvPos := 65536 }

/-- The packet is delivered, without its content and in a block of 1024 bytes. -/
theorem turns_not_intact :
    Reached gameServer wholeBuf ⟨wholeBuf, 0, 65536⟩ ∧
    ∃ m ∈ ((Cursor.mk wholeBuf 0 65536).turn gameServer).msgs,
      m.length = 65510 ∧ m.capacity = 1024 ∧ ¬ Intact ⟨wholeBuf, 0, 65536⟩ m := by
  have hall : (((Cursor.mk wholeBuf 0 65536).turn gameServer).msgs.map fun m =>
      (m.length, m.capacity)) = [((65510 : Int32), 1024)] := by decide +kernel
  obtain ⟨m, hm, he⟩ : ∃ m ∈ ((Cursor.mk wholeBuf 0 65536).turn gameServer).msgs,
      (m.length, m.capacity) = ((65510 : Int32), 1024) :=
    List.mem_map.mp (hall ▸ List.mem_singleton_self _)
  have hlen := congrArg Prod.fst he
  have hcap := congrArg Prod.snd he
  refine ⟨.refl, m, hm, hlen, hcap, fun h => ?_⟩
  have hroom := h.room
  rw [show m.length = 65510 from hlen, show m.capacity = 1024 from hcap] at hroom
  exact absurd hroom (by decide)

end ChatShow.CommBase.RecvTurns
