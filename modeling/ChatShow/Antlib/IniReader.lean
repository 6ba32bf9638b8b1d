import ChatShow.Lib.CStrings
import ChatShow.Lib.Regions

/-! # Ini files

`ini_reader.c`. A file is read line by line into a buffer of 1000 bytes, in which a line is parsed.
The buffer, the name of a section and the text of a node are regions, and `none` is an access
outside of them. The file is what is left of its bytes; what the buffer has at first is not known.

The sections and the nodes of a section are lists in the order of their links, and `_cur` is the
place of a section in the list. A node has the strings that `_str` and `_val` point at, which
nothing changes. -/

namespace ChatShow.Antlib.IniReader

open ChatShow.Lib.Cells ChatShow.Lib.CStrings ChatShow.Lib.Regions

structure IniNode where
  str : List UInt8
  val : List UInt8
deriving DecidableEq

structure IniSection where
  secKey : List UInt8
  nodes : List IniNode := []
deriving DecidableEq

structure IniConfig where
  sections : List IniSection := []
  cur : Option ℕ := none
deriving DecidableEq

/-! ### A line of the file -/

/-- `buf[1000]`. -/
def lineBuf : Region := ⟨0, 1000⟩

/-- What `_read_ini_line` returns and leaves: its result, the buffer, and the file. -/
structure LineRead where
  ret : ℤ
  buf : ℕ → UInt8
  rest : List UInt8

/-- The NUL behind the `i` characters of a line. -/
def endLine (i : ℕ) (buf : ℕ → UInt8) (rest : List UInt8) : Option LineRead :=
  (lineBuf.put buf i 0).map fun buf => ⟨i, buf, rest⟩

/-- The loop of `_read_ini_line`, where `len` is the length that it is told. -/
def readLoop (len : ℕ) : List UInt8 → ℕ → Int32 → (ℕ → UInt8) → Option LineRead
  | [], i, j, buf =>
    if i < len then if 0 < j then endLine i buf [] else some ⟨-1, buf, []⟩
    else endLine i buf []
  | ch :: f, i, j, buf =>
    if i < len then
      if ch = '\n'.toUInt8 ∨ ch = 0 then endLine i buf f
      else if ch = '\r'.toUInt8 then readLoop len f i (j + 1) buf
      else (lineBuf.put buf i ch).bind fun buf => readLoop len f (i + 1) (j + 1) buf
    else endLine i buf (ch :: f)

/-- `_read_ini_line`. -/
def readIniLine (f : List UInt8) (buf : ℕ → UInt8) : Option LineRead := readLoop 1000 f 0 0 buf

/-! ### The parts of a line -/

/-- The first loop of `_parse_ini_line`, over `n` characters from `i` on: blanks are left out, and
what follows a `#`. -/
def stripLoop : ℕ → ℕ → ℕ → (ℕ → UInt8) → Option ((ℕ → UInt8) × ℕ)
  | 0, _, j, buf => some (buf, j)
  | n + 1, i, j, buf =>
    (lineBuf.get buf i).bind fun c =>
      if c = '#'.toUInt8 then some (buf, j)
      else if c ≠ ' '.toUInt8 ∧ c ≠ '\t'.toUInt8 then
        (lineBuf.put buf j c).bind fun buf => stripLoop n (i + 1) (j + 1) buf
      else stripLoop n (i + 1) j buf

/-- What `strncpy` reads of a string that begins at `i`: up to its NUL, and at most `n` bytes. -/
def readStr (r : Region) (m : ℕ → UInt8) : ℕ → ℕ → Option (List UInt8)
  | 0, _ => some []
  | n + 1, i =>
    (r.get m i).bind fun b => if b = 0 then some [] else (readStr r m n (i + 1)).map (b :: ·)

/-- `strncpy` from the line to the front of a structure that is zero, which has room for `size`
bytes. -/
def copyStr (size : ℕ) (buf : ℕ → UInt8) (i n : ℕ) : Option (ℕ → UInt8) :=
  (readStr lineBuf buf n i).bind fun s => Region.write ⟨0, size⟩ (fun _ => 0) 0 (strncpy n s)

/-- The loop that looks for the `=`, over `n` characters from `i` on. -/
def findEq (r : Region) (m : ℕ → UInt8) : ℕ → ℕ → Option (Option ℕ)
  | 0, _ => some none
  | n + 1, i =>
    (r.get m i).bind fun c => if c = '='.toUInt8 then some (some i) else findEq r m n (i + 1)

/-- A section with the name in `buf[1 .. j - 2]`. -/
def newSection (buf : ℕ → UInt8) (j : ℕ) : Option IniSection :=
  (copyStr 200 buf 1 (j - 2)).bind fun m => (cstr (slice m 0 200)).map fun key => ⟨key, []⟩

/-- The node of a line of `j` characters; there is none without a `=`. -/
def newNode (buf : ℕ → UInt8) (j : ℕ) : Option (Option IniNode) :=
  let text : Region := ⟨0, 1000⟩
  (copyStr 1000 buf 0 j).bind fun m =>
    (findEq text m j 0).bind fun r =>
      match r with
      | none => some none
      | some i =>
        (text.put m i 0).bind fun m =>
          (cstr (slice m 0 1000)).bind fun str =>
            (cstr (slice m (i + 1) (1000 - (i + 1)))).map fun val => some ⟨str, val⟩

/-- A section is added, and is the current one. -/
def IniConfig.addSection (config : IniConfig) (s : IniSection) : IniConfig :=
  { sections := config.sections ++ [s], cur := some config.sections.length }

/-- A node is added to the section at `k`. -/
def IniConfig.addNode (config : IniConfig) (k : ℕ) (node : IniNode) : IniConfig :=
  { config with sections := config.sections.modify k fun s => { s with nodes := s.nodes ++ [node] } }

/-- What a line of `j` characters without blanks does. -/
def IniConfig.parseStripped (config : IniConfig) (buf : ℕ → UInt8) (j : ℕ) : Option IniConfig :=
  (lineBuf.get buf 0).bind fun first =>
    if first = '['.toUInt8 then
      if 2 < j then
        (lineBuf.get buf (j - 1)).bind fun last =>
          if last = ']'.toUInt8 ∧ j < 200 then (newSection buf j).map config.addSection
          else some config
      else some config
    else
      match config.cur with
      | none => some config
      | some k =>
        if first ≠ '='.toUInt8 then (newNode buf j).map fun node =>
        node.elim config (config.addNode k)
        else some config

/-- `_parse_ini_line`. -/
def IniConfig.parseIniLine (config : IniConfig) (buf : ℕ → UInt8) (len : ℕ) :
    Option ((ℕ → UInt8) × IniConfig) :=
  (stripLoop len 0 0 buf).bind fun (buf, j) =>
    (lineBuf.put buf j 0).bind fun buf =>
      if j = 0 then some (buf, config)
      else (config.parseStripped buf j).map fun config => (buf, config)

/-! ### A file -/

/-- How far a reader has come. -/
inductive Reading
  | running
  | outside
  | done (config : IniConfig)
deriving DecidableEq

/-- `n` turns of the loop of `read_ini_file`. -/
def readLines : ℕ → List UInt8 → (ℕ → UInt8) → IniConfig → Reading
  | 0, _, _, _ => .running
  | n + 1, f, buf, config =>
    match readIniLine f buf with
    | none => .outside
    | some r =>
      if 0 < r.ret then
        match config.parseIniLine r.buf r.ret.toNat with
        | none => .outside
        | some (buf, config) => readLines n r.rest buf config
      else if r.ret = -1 then .done config
      else readLines n r.rest r.buf config

/-- `read_ini_file`, of a file that can be opened. -/
def readIniFile (n : ℕ) (f : List UInt8) (buf : ℕ → UInt8) : Reading := readLines n f buf {}

/-! ### Lookups -/

namespace IniConfig

/-- `get_section`: the place of the section, and the reader, whose current section it is then. -/
def getSection (config : IniConfig) (session : List UInt8) : Option ℕ × IniConfig :=
  match config.cur with
  | none => (none, config)
  | some k =>
    if config.sections[k]?.map IniSection.secKey = some session then (some k, config)
    else
      match config.sections.findIdx? (·.secKey = session) with
      | some i => (some i, { config with cur := some i })
      | none => (none, config)

/-- The value of the first node with the key. -/
def value (s : IniSection) (key : List UInt8) : Option (List UInt8) :=
  (s.nodes.find? (·.str = key)).map IniNode.val

/-- The search that `get_value_int` and `get_value_string` make. -/
def getValue (config : IniConfig) (session key : List UInt8) : Option (List UInt8) × IniConfig :=
  let (list, config) := config.getSection session
  ((list.bind fun k => config.sections[k]?).bind fun s => value s key, config)

/-- `is_ini_session`. -/
def isIniSession (config : IniConfig) (session : List UInt8) : ℤ × IniConfig :=
  let (list, config) := config.getSection session
  (if list = none then -1 else 0, config)

/-- `atoi`. -/
def atoi (val : List UInt8) : Int32 := Int32.ofInt (atol val)

def getValueInt (config : IniConfig) (session key : List UInt8) (dflt : Int32) : Int32 × IniConfig :=
  let (val, config) := config.getValue session key
  ((val.map atoi).getD dflt, config)

def getValueString (config : IniConfig) (session key dflt : List UInt8) : List UInt8 × IniConfig :=
  let (val, config) := config.getValue session key
  (val.getD dflt, config)

end IniConfig

end ChatShow.Antlib.IniReader
