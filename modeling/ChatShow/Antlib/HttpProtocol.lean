import ChatShow.Lib.Cells
import ChatShow.Lib.CStrings

/-! # Headers of HTTP requests

The parsers of `http_protocol.c`. `parse_http_header_len` looks for the blank line that ends a header
and can be resumed; the parsers of the two methods cut the header into strings by writing NULs into it.
They are called with a header that it has found, which ends with a line feed, so that no loop over a
path or a value runs off it. -1 is `none`. -/

namespace ChatShow.Antlib.HttpProtocol

open ChatShow.Lib.Cells ChatShow.Lib.CStrings

/-! ### Characters -/

/-- `_g_http_path_words`, whose second half is zero. -/
def httpPathWordsTable : List ℕ :=
  [0,  0,  0,  0,  0,  0,  0,  0,  0,  0,  1,  0,  0,  1,  0,  0,
   0,  0,  0,  0,  0,  0,  0,  0,  0,  0,  0,  0,  0,  0,  0,  0,
   1,  3,  0,  0,  3,  2,  3,  0,  3,  3,  3,  3,  3,  3,  3,  4,
  48, 48, 48, 48, 48, 48, 48, 48, 48, 48,  3,  3,  0,  3,  0,  1,
   3, 65, 65, 65, 65, 65, 65, 65, 65, 65, 65, 65, 65, 65, 65, 65,
  65, 65, 65, 65, 65, 65, 65, 65, 65, 65, 65,  3,  3,  3,  3,  4,
   0, 97, 97, 97, 97, 97, 97, 97, 97, 97, 97, 97, 97, 97, 97, 97,
  97, 97, 97, 97, 97, 97, 97, 97, 97, 97, 97,  3,  0,  3,  0,  0]

def httpPathWords (c : UInt8) : ℕ := httpPathWordsTable.getD c.toNat 0

/-- `IS_HTTPURL_OK`, `IS_HTTPVALUE_OK`, `IS_HTTPPATH_OK`, `IS_HTTP_ENESCAPE` and `IS_HTTP_DISESCAPE`. -/
def isHttpurlOk (c : UInt8) : Bool := 0 < httpPathWords c
def isHttpvalueOk (c : UInt8) : Bool := 1 < httpPathWords c
def isHttppathOk (c : UInt8) : Bool := 3 < httpPathWords c
def isHttpEnescape (c : UInt8) : Bool := httpPathWords c < 3
def isHttpDisescape (c : UInt8) : Bool := 4 < httpPathWords c

/-- `HEX_STR`. -/
def hexStr (n : UInt8) : UInt8 := if n < 10 then '0'.toUInt8 + n else 'A'.toUInt8 + (n - 10)

/-- The loop of `str2escape` over `n` characters. What is read and what is written are in the same
memory, and may be the same cells. -/
def escapeLoop (res resLen : ℕ) : ℕ → ℕ → ℕ → (ℕ → UInt8) → Option ((ℕ → UInt8) × ℕ)
  | 0, _, j, m => if j < resLen then some (store m (res + j) [0], j) else none
  | n + 1, str, j, m =>
    if isHttpEnescape (m str) then
      if j + 3 ≥ resLen then none
      else
        let m := store m (res + j) ['%'.toUInt8]
        let m := store m (res + j) [hexStr ((m str &&& 0xF0) >>> 4)]
        let m := store m (res + j + 1) [hexStr (m str &&& 0x0F)]
        escapeLoop res resLen n (str + 1) (j + 2) m
    else if j + 1 ≥ resLen then none
    else escapeLoop res resLen n (str + 1) (j + 1) (store m (res + j) [m str])

/-- `str2escape`: the memory after it, and the length of what it wrote. -/
def str2escape (m : ℕ → UInt8) (str len res resLen : ℕ) : Option ((ℕ → UInt8) × ℕ) :=
  escapeLoop res resLen len str 0 m

/-- The digit that a character stands for where it is unescaped. -/
def unescaped (c : UInt8) : UInt8 := c - UInt8.ofNat (httpPathWords c)

/-- The loop of `escape2str` over `n` characters, of which a `%` takes two more. -/
def unescapeLoop (res resLen : ℕ) : ℕ → ℕ → ℕ → (ℕ → UInt8) → Option ((ℕ → UInt8) × ℕ)
  | 0, _, j, m => if j < resLen then some (store m (res + j) [0], j) else none
  | n + 1, str, j, m =>
    if m str ≠ '%'.toUInt8 then
      unescapeLoop res resLen n (str + 1) (j + 1) (store m (res + j) [m str])
    else
      match n with
      | n + 2 =>
        if j ≥ resLen then none
        else if isHttpDisescape (m (str + 1)) = false then none
        else
          let m := store m (res + j) [unescaped (m (str + 1)) <<< 4]
          if isHttpDisescape (m (str + 2)) = false then none
          else
            let m := store m (res + j) [m (res + j) ||| unescaped (m (str + 2))]
            unescapeLoop res resLen n (str + 3) (j + 1) m
      | _ => none

/-- `escape2str`. -/
def escape2str (m : ℕ → UInt8) (str len res resLen : ℕ) : Option ((ℕ → UInt8) × ℕ) :=
  unescapeLoop res resLen len str 0 m

/-! ### The length of a header -/

/-- The loop of `parse_http_header_len` over `n` bytes from `i` on: the length of the header, if its end
is there. -/
def headerLoop (buf : ℕ → UInt8) : ℕ → ℕ → Option (Option ℕ)
  | 0, _ => some none
  | n + 1, i =>
    if isHttpurlOk (buf i) = false then none
    else if buf i = '\n'.toUInt8 then
      if i < 13 then none
      else if buf (i - 2) = '\n'.toUInt8 then
        if buf (i - 3) ≠ '\r'.toUInt8 ∨ buf (i - 1) ≠ '\r'.toUInt8 then none else some (some (i + 1))
      else headerLoop buf n (i + 1)
    else headerLoop buf n (i + 1)

/-- `parse_http_header_len`: its result and `*off`. -/
def parseHttpHeaderLen (buf : ℕ → UInt8) (len off : ℕ) : ℤ × ℕ :=
  match headerLoop buf (len - off) off with
  | none => (-1, off)
  | some (some n) => (n, n)
  | some none => (0, off + (len - off))

/-! ### The parsers of the methods -/

/-- The loop over a path, from the character `i` of the header on: what it leaves of the path, where
`*path2` points, and what is behind the path. The paths of the methods differ in what ends them. -/
def parsePath (stop : UInt8) : List UInt8 → ℕ → Option ℕ →
    Option (List UInt8 × Option ℕ × List UInt8)
  | [], _, path2 => some ([], path2, [])
  | b :: l, i, path2 =>
    if b = stop then some ([0], path2, l)
    else if b = '/'.toUInt8 then
      (parsePath stop l (i + 1) (some (i + 1))).map fun p => (0 :: p.1, p.2)
    else if isHttppathOk b then (parsePath stop l (i + 1) path2).map fun p => (b :: p.1, p.2)
    else none

/-- The loop of `parse_http_get` over the values: the values, and what is behind the blank. -/
def parseValues : List UInt8 → Option (List UInt8 × List UInt8)
  | [] => some ([], [])
  | b :: l =>
    if b = ' '.toUInt8 then some ([], l)
    else if isHttpvalueOk b then (parseValues l).map fun p => (b :: p.1, p.2)
    else none

/-- What `parse_http_get` leaves: the header, where `*path1`, `*path2` and `*values` point, and its
result. -/
structure HttpGet where
  buf : List UInt8
  path1 : ℕ
  path2 : Option ℕ
  values : ℕ
  len : ℕ

def parseHttpGet (buf : List UInt8) : Option HttpGet :=
  if buf.getD 3 0 ≠ ' '.toUInt8 ∨ buf.getD 4 0 ≠ '/'.toUInt8 then none
  else do
    let (path, path2, rest) ← parsePath '?'.toUInt8 (buf.drop 6) 6 none
    let (values, rest) ← parseValues rest
    let (m, n) ← str2escape (cells values) 0 values.length 0 (values.length + 1)
    some
      { buf := buf.take 6 ++ path ++ slice m 0 (values.length + 1) ++ rest
        path1 := 5
        path2 := path2
        values := 6 + path.length
        len := n }

/-- `snprintf` of a text into `size` cells: what it writes. -/
def snprintf (m : ℕ → UInt8) (buf size : ℕ) (text : List UInt8) : ℕ → UInt8 :=
  if size = 0 then m else store m buf (text.take (size - 1) ++ [0])

/-- `strlen` of a string that is shorter than `n`, and else `n`. -/
def strnlen (m : ℕ → UInt8) : ℕ → ℕ → ℕ
  | 0, _ => 0
  | n + 1, str => if m str = 0 then 0 else strnlen m n (str + 1) + 1

/-- The texts of `set_http_get`. -/
def getLine (path : List UInt8) : List UInt8 :=
  "GET /".toList.map Char.toUInt8 ++ path ++ ['?'.toUInt8]

def getHost (host : List UInt8) : List UInt8 :=
  " HTTP/1.1\r\nHost: ".toList.map Char.toUInt8 ++ host ++ "\r\n\r\n".toList.map Char.toUInt8

/-- `set_http_get`, where `values` is the address of the values. It has no more to know of their length
than whether it is below `len`. -/
def setHttpGet (m : ℕ → UInt8) (buf len : ℕ) (path host : List UInt8) (values : ℕ) (valueLen : ℤ) :
    Option ((ℕ → UInt8) × ℕ) :=
  let n := (getLine path).length
  let m := snprintf m buf len (getLine path)
  let valueLen := if valueLen = -1 then (strnlen m len values : ℤ) else valueLen
  if n + valueLen ≥ len then none
  else do
    let (m, k) ← str2escape m values valueLen.toNat (buf + n) (len - n)
    let n := n + k
    let m := snprintf m (buf + n) (len - k) (getHost host)
    if n + (getHost host).length ≥ len then none else some (m, n + (getHost host).length)

/-- What `parse_http_post` leaves. -/
structure HttpPost where
  buf : List UInt8
  path1 : ℕ
  path2 : Option ℕ
  contentLen : ℤ

def contentLengthKey : List UInt8 := "Content-Length: ".toList.map Char.toUInt8

/-- The loop of `parse_http_post` behind the path, where the character `prev` is in front and `behind`
is what the buffer has behind the header: `atol` does not know where the header ends. -/
def contentLength (behind : List UInt8) : UInt8 → List UInt8 → ℤ → Option ℤ
  | _, [], len => some len
  | prev, b :: l, len =>
    if b = 'C'.toUInt8 ∧ prev = '\n'.toUInt8 ∧ 16 < (b :: l).length ∧
        (b :: l).take 16 = contentLengthKey then
      let len := atol ((b :: l).drop 16 ++ behind)
      if len < 0 then none else contentLength behind b l len
    else contentLength behind b l len

def parseHttpPost (buf behind : List UInt8) : Option HttpPost :=
  if buf.getD 4 0 ≠ ' '.toUInt8 ∨ buf.getD 5 0 ≠ '/'.toUInt8 then none
  else do
    let (path, path2, rest) ← parsePath ' '.toUInt8 (buf.drop 7) 7 none
    let len ← contentLength behind 0 rest 0
    some
      { buf := buf.take 7 ++ path ++ rest
        path1 := 6
        path2 := path2
        contentLen := len }

/-! ### The values of a body -/

/-- The loop of `parse_http_values2` over `n` characters from `i` on. `no` is the field that is open and
`key` is where the last name begins; `base` is the address of the buffer. -/
def valuesLoop (getIndex : List UInt8 → List ℕ → Option ℕ) (base : ℕ) :
    ℕ → ℕ → (ℕ → UInt8) → List ℕ → Option ℕ → ℕ → (ℕ → UInt8) × List ℕ
  | 0, _, buf, values, _, _ => (buf, values)
  | n + 1, i, buf, values, no, key =>
    if buf (i - 1) = '='.toUInt8 then
      let buf := store buf (i - 1) [0]
      let no := getIndex ((cstr (slice buf key (i - key))).getD []) values
      let values := match no with
        | some k => values.set k (base + i)
        | none => values
      valuesLoop getIndex base n (i + 1) buf values no key
    else if buf (i - 1) = '&'.toUInt8 then
      let buf := if no.isSome then store buf (i - 1) [0] else buf
      valuesLoop getIndex base n (i + 1) buf values no i
    else valuesLoop getIndex base n (i + 1) buf values no key

def parseHttpValues2 (buf : ℕ → UInt8) (len base : ℕ) (values : List ℕ)
    (getIndex : List UInt8 → List ℕ → Option ℕ) : (ℕ → UInt8) × List ℕ :=
  valuesLoop getIndex base (len - 1) 1 buf values none 0

end ChatShow.Antlib.HttpProtocol
