import ChatShow.CommBase.NetWorkConfig
import ChatShow.CommBase.Util

/-! # Messages

`Message` with the block that `malloc` returned for its content. The bytes of the block that were
never written are whatever they are, so a message is made over a given `block`; an access outside
the block, or of a length that no `size_t` of the block can be, is `none`. MD5 is a parameter: any
function from byte strings to 16-byte digests. -/

namespace ChatShow.CommBase.MessageManager

open ChatShow.Lib.Cells ChatShow.CommBase.NetWorkConfig ChatShow.CommBase.Util

/-- A digest function. -/
structure MD5 where
  digest : List UInt8 → List UInt8
  length_digest : ∀ l, (digest l).length = 16

/-- A digest function for runs on fixed inputs. -/
def zeroMD5 : MD5 := ⟨fun _ => List.replicate 16 0, fun _ => rfl⟩

/-- `Message`, without its address. A pointer to another object is the number of that object. -/
structure Message where
  content : ℕ → UInt8
  capacity : ℕ := MAX_RECV_MSG_CONTENT_SIZE
  req : Option ℕ := none
  remoteID : Int16 := -1
  remoteType : UInt8 := 0
  localID : Int16 := 0
  localType : UInt8 := 0
  timeout : UInt16 := 0
  reqID : Int32 := 0
  channelID : ℤ := -1
  messageID : UInt32 := 0
  messageType : UInt8 := 0
  length : Int32 := 0
  errno : ℤ := 0
  security : Bool := false
  sendTime : UInt64 := 0
  loopIndex : ℤ := -1
  group : ℤ := -1
  groupKey : ℤ := -1
  act : Option ℕ := none

namespace Message

/-- `Message(int id, unsigned int type)`. -/
def new (block : ℕ → UInt8) (id : Int16) (type : UInt8) : Message :=
  { content := block, remoteID := id, remoteType := type }

def setHead (m : Message) (head : packetHeader) : Message :=
  { m with
    length := head.length
    messageID := head.messageID
    messageType := head.messageType
    localID := head.remoteID
    localType := head.remoteType
    remoteType := head.localType
    reqID := head.reqID
    security := head.security
    sendTime := head.sendTime }

def getHead (m : Message) : packetHeader :=
  packetHeader.toSmallEndian
    { length := m.length
      messageID := m.messageID
      messageType := m.messageType
      remoteID := m.remoteID
      remoteType := m.remoteType
      localType := m.localType
      reqID := m.reqID
      security := m.security
      sendTime := m.sendTime }

/-- `SetContent`. A content that is too long is not stored, and `m_length` stays as it is. -/
def setContent (m : Message) (content : ℕ → UInt8) (len : Int32) : Option Message :=
  if len.toInt < 0 ∨ 2147483648 ≤ len.toInt + HEADER_LENGTH + 16 then none
  else if len.toInt + HEADER_LENGTH + 16 > MAX_MSG_PACKET_SIZE then some m
  else
    let capacity :=
      if len.toInt + 16 > MAX_RECV_MSG_CONTENT_SIZE then (len.toInt + 16).toNat else m.capacity
    (safeMemmove m.content 0 len.toInt content len.toInt).map fun c =>
      { m with content := c, capacity := capacity, length := len }

/-- Only the content, its block and its length change. -/
theorem setContent_eq {m m' : Message} {content : ℕ → UInt8} {len : Int32}
    (h : m.setContent content len = some m') :
    ∃ c capacity length, m' = { m with content := c, capacity := capacity, length := length } := by
  unfold setContent at h
  split_ifs at h
  · cases h
    exact ⟨m.content, m.capacity, m.length, rfl⟩
  · obtain ⟨c, -, rfl⟩ := Option.map_eq_some_iff.mp h
    exact ⟨c, _, len, rfl⟩
  · obtain ⟨c, -, rfl⟩ := Option.map_eq_some_iff.mp h
    exact ⟨c, _, len, rfl⟩

/-- The `n` bytes of the content from `off` on, read inside its block. -/
def read? (m : Message) (off n : ℤ) : Option (List UInt8) :=
  if 0 ≤ off ∧ 0 ≤ n ∧ off + n ≤ m.capacity then some (slice m.content off.toNat n.toNat) else none

/-- `EncryptMessage`: the digest goes behind the content. -/
def encryptMessage (md5 : MD5) (m : Message) : Option Message :=
  if m.security then
    if m.length.toInt + 16 > MAX_MSG_PACKET_SIZE then some m
    else do
      let bytes ← m.read? 0 m.length.toInt
      let _ ← m.read? m.length.toInt 16
      some { m with
        content := store m.content m.length.toInt.toNat (md5.digest bytes)
        length := m.length + 16 }
  else some m

/-- Only the content and its length change. -/
theorem encryptMessage_eq {md5 : MD5} {m m' : Message} (h : m.encryptMessage md5 = some m') :
    ∃ content length, m' = { m with content := content, length := length } := by
  unfold encryptMessage at h
  split_ifs at h
  · cases h
    exact ⟨m.content, m.length, rfl⟩
  · obtain ⟨bytes, -, h⟩ := Option.bind_eq_some_iff.mp h
    obtain ⟨-, -, h⟩ := Option.bind_eq_some_iff.mp h
    cases h
    exact ⟨_, _, rfl⟩
  · cases h
    exact ⟨m.content, m.length, rfl⟩

/-- `strncmp(..) == 0` on two strings of `n` bytes: nothing is compared behind a NUL. -/
def strncmpEq : List UInt8 → List UInt8 → Bool
  | a :: as, b :: bs => a == b && (a == 0 || strncmpEq as bs)
  | _, _ => true

theorem strncmpEq_self (l : List UInt8) : strncmpEq l l = true := by
  induction l with
  | nil => rfl
  | cons a l ih => simp [strncmpEq, ih]

/-- `UnEncryptMessage`: whether the message is accepted, and the message without its digest. -/
def unEncryptMessage (md5 : MD5) (m : Message) : Option (Bool × Message) :=
  if m.security then do
    let bytes ← m.read? 0 (m.length.toInt - 16)
    let tail ← m.read? (m.length.toInt - 16) 16
    if strncmpEq (md5.digest bytes) tail then some (true, { m with length := m.length - 16 })
    else some (false, m)
  else some (true, m)

/-- Only the length changes. -/
theorem unEncryptMessage_eq {md5 : MD5} {m m' : Message} {ok : Bool}
    (h : m.unEncryptMessage md5 = some (ok, m')) : ∃ length, m' = { m with length := length } := by
  unfold unEncryptMessage at h
  split_ifs at h
  · obtain ⟨bytes, -, h⟩ := Option.bind_eq_some_iff.mp h
    obtain ⟨tail, -, h⟩ := Option.bind_eq_some_iff.mp h
    split_ifs at h
    · cases h
      exact ⟨_, rfl⟩
    · cases h
      exact ⟨m.length, rfl⟩
  · cases h
    exact ⟨m.length, rfl⟩

/-- The content as far as `m_length` says it goes. -/
def bytes (m : Message) : List UInt8 := slice m.content 0 m.length.toInt.toNat

end Message

end ChatShow.CommBase.MessageManager
