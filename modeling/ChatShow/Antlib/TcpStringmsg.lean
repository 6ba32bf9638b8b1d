import ChatShow.Antlib.HttpProtocol
import ChatShow.Antlib.TcpMsglist

/-! # String messages

The part of `tcp_msglist.c` for messages whose body is a list of named values: the tables registered
under two keys, `parse_stringmsg`, and `httpmsg_putout_range`. The block of a message has its body at
`_buf`, four bytes that nothing sets, and the `_vl` pointers; a string that begins in the body ends at
the first NUL of the block. A string that does not end in it, or a block that cannot be made, is
`none`. -/

namespace ChatShow.Antlib.TcpStringmsg

open ChatShow.Lib.Cells ChatShow.Lib.CStrings
open ChatShow.Antlib.HttpProtocol ChatShow.Antlib.TcpMsglist

structure TcpmsgField where
  name : List UInt8
  min : ℤ
  max : ℤ
  type : ℤ
  deriving DecidableEq

/-- A table that `tcpmsg_regist_string` has registered. -/
structure StringTable where
  id : ℤ
  fields : List TcpmsgField

/-- What `_tcpmsg_regist` and `tcpmsg_regist_string` add up for the names and the `&` between them. -/
def namesSize (fields : List TcpmsgField) : ℤ :=
  (fields.map fun f => (f.name.length : ℤ) + 1).sum +
    if fields.length > 1 then (fields.length : ℤ) - 1 else 0

def StringTable.table (t : StringTable) : TcpmsgTable where
  n := t.fields.length
  minSize := (t.fields.map TcpmsgField.min).sum + namesSize t.fields
  maxSize := (t.fields.map TcpmsgField.max).sum + namesSize t.fields

/-- `+=` on the two sizes of a table, which are `int`s and must not overflow. -/
def addSizes (m s : ℤ × ℤ) : Option (ℤ × ℤ) :=
  if -2 ^ 31 ≤ (m + s).1 ∧ (m + s).1 < 2 ^ 31 ∧ -2 ^ 31 ≤ (m + s).2 ∧ (m + s).2 < 2 ^ 31 then
    some (m + s)
  else none

/-- `_tcpmsg_regist`: no table, or the fields with the sums of their limits. `taken` are the ids that
have a table. -/
def tcpmsgRegist (taken : ℤ → Bool) (id : ℤ) (fields : List TcpmsgField) :
    Option (Option (StringTable × ℤ × ℤ)) :=
  if id ≤ 0 ∨ 65536 ≤ id ∨ taken id ∨ 1024 < fields.length then some none
  else
    (fields.foldlM (fun m f => addSizes m (f.min, f.max)) (0, 0)).map fun m =>
      some (⟨id, fields.map fun f => { f with name := f.name.take 31 }⟩, m)

/-- `tcpmsg_regist_string`: no table, or the table with its `_min_size` and `_max_size`. A sum that
overflows is `none`. -/
def tcpmsgRegistString (taken : ℤ → Bool) (tables : List UInt8 → List UInt8 → Option StringTable)
    (key1 key2 : Option (List UInt8)) (id : ℤ) (fields : List TcpmsgField) :
    Option (Option (StringTable × ℤ × ℤ)) :=
  if key1.getD [] = [] ∨ key2.getD [] = [] then some none
  else
    match tcpmsgRegist taken id fields with
    | none => none
    | some none => some none
    | some (some (t, m)) =>
      if (tables (key1.getD []) (key2.getD [])).isSome then some none
      else do
        let m ← t.fields.foldlM (fun m f => addSizes m (f.name.length + 1, f.name.length + 1)) m
        let m ← if 1 < fields.length then
            addSizes m ((fields.length : ℤ) - 1, (fields.length : ℤ) - 1)
          else some m
        return some (t, m)

/-- `tcpmsg_getbykey`: no message, or a message with the fields of its table. A key is `none` where it
is the null pointer. -/
def tcpmsgGetbykey (tables : List UInt8 → List UInt8 → Option StringTable) (block : ℕ → UInt8)
    (key1 key2 : Option (List UInt8)) (msglen : ℤ) (userid netid : UInt64) (ip : UInt32) :
    Option (Option (HandlerMsg × List TcpmsgField)) :=
  if key1.getD [] = [] ∨ key2.getD [] = [] then some none
  else
    match tables (key1.getD []) (key2.getD []) with
    | none => some none
    | some t =>
      if t.table.n > 0 ∧ (msglen < t.table.minSize ∨ msglen > t.table.maxSize) then some none
      else
        (createTcpstream block userid t.id msglen t.table t.table.n netid ip).map fun msg =>
          some (msg, t.fields)

/-! ### The fields -/

def tcpmsgFieldIndex (fields : List TcpmsgField) (field : List UInt8) (vl : List ℕ) : Option ℕ :=
  (fields.zip vl).findIdx? fun p => p.2 = 0 ∧ p.1.name = field

/-- The cell `i` from `_buf` on: `_vl` begins four cells behind the body. -/
def streamCell (s : TcpStream) (i : ℕ) : UInt8 :=
  let v := i - (s.len.toNat + 4)
  if s.len.toNat + 4 ≤ i ∧ v / 8 < s.vl.length then UInt8.ofNat (s.vl.getD (v / 8) 0 / 256 ^ (v % 8))
  else s.buf i

/-- The string that the pointer `p` into a block of `size` cells points at. -/
def streamStr (base size : ℕ) (s : TcpStream) (p : ℕ) : Option (List UInt8) :=
  cstr (slice (streamCell s) (p - base) (size - (p - base)))

/-- The loop of `parse_stringmsg` over the fields from `i` on. -/
def fieldsLoop (base size : ℕ) : List TcpmsgField → ℕ → TcpStream → Option (Option TcpStream)
  | [], _, s => some (some s)
  | f :: fields, i, s =>
    let p := s.vl.getD i 0
    if p = 0 then some none
    else
      match streamStr base size s p with
      | none => none
      | some v =>
        if v.length < f.min ∨ v.length > f.max then some none
        else
          let s :=
            if f.type ≠ 0 then { s with vl := s.vl.set i (atol v % 2 ^ 64).toNat } else s
          fieldsLoop base size fields (i + 1) s

/-- `parse_stringmsg`, in a block of `size` cells from the address `base` of `_buf` on. -/
def parseStringmsg (fields : List TcpmsgField) (base size : ℕ) (s : TcpStream) :
    Option (Option TcpStream) :=
  if fields.length = 0 then some (some s)
  else
    let (buf, vl) :=
      parseHttpValues2 s.buf s.len.toNat base s.vl (tcpmsgFieldIndex fields)
    fieldsLoop base size fields 0 { s with buf := buf, vl := vl }

/-- The cells that the block of a message has from `_buf` on, which is 52 bytes into it. -/
def streamSize (msg : HandlerMsg) : ℕ := (msg.datalen - 52).toNat

/-- `httpmsg_putout_range`: its result, the message, and whether the handler was called with it. -/
def httpmsgPutoutRange (fields : List TcpmsgField) (base : ℕ) (msg : HandlerMsg)
    (addmsg : Option (ℕ → UInt8)) (addlen : ℤ) : Option (ℤ × HandlerMsg × Bool) :=
  let s := msg.data
  if addlen < 0 then none
  else if s.len - s.off ≤ addlen then
    let n := match addmsg with
      | some _ => s.len - s.off
      | none => 0
    let buf := store s.buf s.off.toNat (slice (addmsg.getD fun _ => 0) 0 n.toNat)
    match parseStringmsg fields base (streamSize msg) { s with buf := buf, off := 0 } with
    | none => none
    | some none => some (-2, msg, false)
    | some (some s) => some (n, { msg with data := s }, true)
  else if addlen > 0 then
    let buf := store s.buf s.off.toNat (slice (addmsg.getD fun _ => 0) 0 addlen.toNat)
    some (-1, { msg with data := { s with buf := buf, off := s.off + addlen } }, false)
  else some (-1, msg, false)

end ChatShow.Antlib.TcpStringmsg
