import ChatShow.CommBase.NetWorkConfig
import ChatShow.CommBase.Util

/-! # The circular send buffer

`CCircleBuff` as the source has it: two indices into one block, and the index at which the readable
bytes behind the read index end once the writer has started again at the front. An `int` is an
integer here; `WriteData` adds two of them, and that sum wraps. A function that returns a code
returns it with the buffer it leaves. -/

namespace ChatShow.CommBase.CircleBuffer

open ChatShow.Lib.Cells ChatShow.CommBase.NetWorkConfig ChatShow.CommBase.Util

structure CCircleBuff where
  readIndex : ℤ
  writeIndex : ℤ
  lastIndex : ℤ
  bufCapacity : ℤ
  buffer : ℕ → UInt8

namespace CCircleBuff

def reset (b : CCircleBuff) : CCircleBuff :=
  { b with readIndex := 0, writeIndex := 0, lastIndex := b.bufCapacity }

/-- The constructor, over a block that `malloc` returned. -/
def new (buffSize : ℕ) (block : ℕ → UInt8) : CCircleBuff where
  readIndex := 0
  writeIndex := 0
  lastIndex := buffSize
  bufCapacity := buffSize
  buffer := block

/-- `ResetSize`: the block is made larger or smaller in place, and what was in it is given up. -/
def resetSize (b : CCircleBuff) (buffSize : ℕ) : CCircleBuff :=
  { b with bufCapacity := buffSize }.reset

def isNormal (b : CCircleBuff) : Bool := b.readIndex ≤ b.writeIndex

def isEmpty (b : CCircleBuff) : Bool := b.readIndex == b.writeIndex

def getReadLen (b : CCircleBuff) : ℤ :=
  if b.isNormal then b.writeIndex - b.readIndex else b.lastIndex - b.readIndex

def getLeftBuffSize (b : CCircleBuff) : ℤ :=
  if b.isNormal then b.writeIndex - b.readIndex
  else b.lastIndex - b.readIndex + b.writeIndex

def getWriteLen (b : CCircleBuff) : ℤ :=
  if b.isNormal then b.bufCapacity - b.writeIndex else b.readIndex - b.writeIndex - 1

def hadRead (b : CCircleBuff) (readLen : ℤ) : CCircleBuff :=
  { b with readIndex := b.readIndex + readLen }

def hadWrite (b : CCircleBuff) (writeLen : ℤ) : CCircleBuff :=
  { b with writeIndex := b.writeIndex + writeLen }

def isReadOverAgain (b : CCircleBuff) : CCircleBuff :=
  if b.isNormal then b
  else if b.readIndex ≥ b.lastIndex then { b with readIndex := 0, lastIndex := b.bufCapacity }
  else b

def isWriteOverAgain (b : CCircleBuff) (writeLen : ℤ) : CCircleBuff :=
  if !b.isNormal then b
  else if b.getWriteLen < writeLen ∧ b.readIndex > 1 ∧ b.readIndex ≤ b.writeIndex then
    { b with lastIndex := b.writeIndex, writeIndex := 0 }
  else b

/-- `WriteData`: the header `pHead`, then `nBuffLen` bytes from `strBuff` on. -/
def writeData (b : CCircleBuff) (strBuff : ℕ → UInt8) (nBuffLen : Int32) (pHead : packetHeader) :
    NetWorkRet × CCircleBuff :=
  let writeLen := (nBuffLen + Int32.ofNat HEADER_LENGTH).toInt
  let b := b.isWriteOverAgain writeLen
  let spaceLen := b.getWriteLen
  let writeHead := b.writeIndex.toNat
  if spaceLen < writeLen then (.eNoEnughWrite, b)
  else
    match safeMemmove b.buffer writeHead spaceLen (store (fun _ => 0) 0 pHead.encode)
      HEADER_LENGTH with
    | none => (.eWriteHeaderErr, b)
    | some m =>
      let b := { b with buffer := m }
      match safeMemmove m (writeHead + HEADER_LENGTH) (spaceLen - HEADER_LENGTH) strBuff
        nBuffLen.toInt with
      | none => (.eWritePacketErr, b)
      | some m => (.eNetSuccess, { b with buffer := m }.hadWrite writeLen)

/-- `WriteSend`: the length of a header to a client stands in network order. -/
def writeSend (b : CCircleBuff) (strBuff : ℕ → UInt8) (gh : packetHeader) :
    NetWorkRet × CCircleBuff :=
  b.writeData strBuff (if gh.remoteType ≤ 0 then htonlInt gh.length else gh.length) gh

def writeBuffer (b : CCircleBuff) (strBuff : ℕ → UInt8) (buffLen : Int32) :
    NetWorkRet × CCircleBuff :=
  let b := b.isWriteOverAgain buffLen.toInt
  let spaceLen := b.getWriteLen
  if spaceLen < buffLen.toInt then (.eNoEnughWrite, b)
  else
    match safeMemmove b.buffer b.writeIndex.toNat spaceLen strBuff buffLen.toInt with
    | none => (.eWriteBuffErr, b)
    | some m => (.eNetSuccess, { b with buffer := m }.hadWrite buffLen.toInt)

/-- `ReadSendBuff`: the bytes from `sendBuff` on that the caller may take, or `eBuffNULL`. -/
def readSendBuff (b : CCircleBuff) : NetWorkRet × List UInt8 × CCircleBuff :=
  let b := b.isReadOverAgain
  if b.isEmpty then (.eBuffNULL, [], b)
  else (.eNetSuccess, slice b.buffer b.readIndex.toNat b.getReadLen.toNat, b)

end CCircleBuff

end ChatShow.CommBase.CircleBuffer
