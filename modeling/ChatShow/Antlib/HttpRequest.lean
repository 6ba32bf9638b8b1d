import ChatShow.Antlib.TcpProtocolHttp
import Mathlib.Data.List.GetD

/-! # Requests

A request is a header that ends with its first blank line and what comes behind it, of which a POST
request takes the bytes that its header announces as its body. What the parsers make of a header does
not depend on what the buffer has behind it (`headerLoop_congr`, `parseHttpPost_behind`), and the search
for the blank line can be cut anywhere (`headerLoop_add`): over more and more bytes of a request it finds
nothing, until it finds the end of the header or an error, and then stays with it (`scan_cases`). -/

namespace ChatShow.Antlib.HttpRequest

open ChatShow.Lib.Cells ChatShow.Lib.CStrings
open ChatShow.Antlib.HttpProtocol ChatShow.Antlib.TcpMsglist ChatShow.Antlib.TcpStringmsg
open ChatShow.Antlib.TcpProtocol4 (TCPCONNECTION_BUFLEN)
open ChatShow.Antlib.TcpProtocolHttp ChatShow.Antlib.TcpProtocolHttp.HttpConnection

/-! ### Well-formed requests -/

structure Request where
  head : List UInt8
  body : List UInt8

def blankLine : List UInt8 := [13, 10, 13, 10]

theorem getD_blankLine (pre : List UInt8) (i : ℕ) :
    (pre ++ blankLine).getD (pre.length + i) 0 = blankLine.getD i 0 := by
  rw [List.getD_append_right _ _ _ _ (Nat.le_add_right _ _), Nat.add_sub_cancel_left]

namespace Request

def bytes (r : Request) : List UInt8 := r.head ++ r.body

def isGet (r : Request) : Prop := r.head.head? = some 'G'.toUInt8
def isPost (r : Request) : Prop := r.head.head? = some 'P'.toUInt8

instance (r : Request) : Decidable r.isGet := inferInstanceAs (Decidable (_ = _))
instance (r : Request) : Decidable r.isPost := inferInstanceAs (Decidable (_ = _))

/-- The bytes behind the header that belong to the request. -/
def announced (r : Request) : ℕ :=
  if r.isGet then 0 else ((parseHttpPost r.head []).elim 0 HttpPost.contentLen).toNat

/-- Where the request ends. -/
def size (r : Request) : ℕ := r.head.length + r.announced

end Request

/-- A request with a blank line at the end of its header and none before. A `Content-Length` line
has a value, and the body has all bytes that are announced. -/
structure WellFormed (r : Request) : Prop where
  method : r.isGet ∨ r.isPost
  blank : blankLine <:+ r.head
  first : ∀ l, l <+: r.head → blankLine <:+ l → l = r.head
  value : ∀ pre line, r.head = pre ++ ('\n'.toUInt8 :: contentLengthKey ++ line) →
    ∃ c ∈ line, isspace c = false
  body : r.announced ≤ r.body.length

/-- The parts of a header can be looked at one after the other. -/
theorem wellFormed_of_checks (r : Request) (hmethod : r.isGet ∨ r.isPost)
    (hblank : blankLine <:+ r.head)
    (hfirst : ∀ k < r.head.length, ¬ blankLine <:+ r.head.take k)
    (hvalue : ∀ k < r.head.length, (r.head.drop k).take 17 = '\n'.toUInt8 :: contentLengthKey →
      ∃ c ∈ r.head.drop (k + 17), isspace c = false)
    (hbody : r.announced ≤ r.body.length) : WellFormed r where
  method := hmethod
  blank := hblank
  first l hl hb := by
    have htake := List.prefix_iff_eq_take.mp hl
    rcases Nat.lt_or_ge l.length r.head.length with h | h
    · rw [htake] at hb
      exact absurd hb (hfirst l.length h)
    · exact hl.eq_of_length (Nat.le_antisymm hl.length_le h)
  value pre line h := by
    have hlen := congrArg List.length h
    rw [List.length_append, List.length_append, List.length_cons] at hlen
    have hdrop : r.head.drop pre.length = '\n'.toUInt8 :: contentLengthKey ++ line := by
      rw [h, List.drop_left]
    have hline : r.head.drop (pre.length + 17) = line := by
      rw [← List.drop_drop, hdrop]
      rfl
    rw [← hline]
    exact hvalue pre.length (by omega) (by rw [hdrop]; rfl)
  body := hbody

/-! ### The end of the header -/

theorem headerLoop_congr {buf buf' : ℕ → UInt8} {n i : ℕ} (h : ∀ j < i + n, buf j = buf' j) :
    headerLoop buf n i = headerLoop buf' n i := by
  induction n generalizing i with
  | zero => rfl
  | succ n ih =>
    have hnext : headerLoop buf n (i + 1) = headerLoop buf' n (i + 1) :=
      ih fun j hj => h j (by omega)
    unfold headerLoop
    rw [h i (by omega), h (i - 1) (by omega), h (i - 2) (by omega), h (i - 3) (by omega), hnext]

/-- The loop goes on where it had not come to an end. -/
theorem headerLoop_add (buf : ℕ → UInt8) (n k i : ℕ) :
    headerLoop buf (n + k) i = (headerLoop buf n i).bind fun
      | some len => some (some len)
      | none => headerLoop buf k (i + n) := by
  induction n generalizing i with
  | zero => rw [Nat.zero_add]; rfl
  | succ n ih =>
    have hi : i + (n + 1) = i + 1 + n := by omega
    rw [Nat.add_right_comm, headerLoop, headerLoop, hi]
    split_ifs
    · rfl
    · rfl
    · rfl
    · rfl
    · exact ih (i + 1)
    · exact ih (i + 1)

/-- Where the loop has found the end of a header there is a blank line. -/
theorem headerLoop_found {buf : ℕ → UInt8} {n i len : ℕ}
    (h : headerLoop buf n i = some (some len)) :
    13 < len ∧ len ≤ i + n ∧ slice buf (len - 4) 4 = blankLine := by
  induction n generalizing i with
  | zero => cases h
  | succ n ih =>
    have hnext (h : headerLoop buf n (i + 1) = some (some len)) :
        13 < len ∧ len ≤ i + (n + 1) ∧ slice buf (len - 4) 4 = blankLine := by
      obtain ⟨h1, h2, h3⟩ := ih h
      exact ⟨h1, by omega, h3⟩
    rw [headerLoop] at h
    split_ifs at h with h1 h2 h3 h4 h5
    · rw [not_or, not_not, not_not] at h5
      cases h
      have hs : slice buf (i + 1 - 4) 4 = [buf (i - 3), buf (i - 2), buf (i - 1), buf i] := by
        have hi : i + 1 - 4 = i - 3 := by omega
        have h1 : i - 2 = i - 3 + 1 := by omega
        have h2 : i - 1 = i - 3 + 2 := by omega
        have h3 : i = i - 3 + 3 := by omega
        rw [hi, h1, h2]
        conv_rhs => rw [h3]
        rfl
      refine ⟨by omega, by omega, ?_⟩
      rw [hs, h5.1, h4, h5.2, h2]
      rfl
    · exact hnext h
    · exact hnext h

/-- The loop does not go past a blank line. -/
theorem headerLoop_stops {buf : ℕ → UInt8} {n i j : ℕ} (h : headerLoop buf n i = some none)
    (hi : i ≤ j) (hj : j < i + n) : buf j = 10 → buf (j - 2) ≠ 10 := by
  induction n generalizing i with
  | zero => omega
  | succ n ih =>
    rw [headerLoop] at h
    intro hl hl2
    rcases Nat.eq_or_lt_of_le hi with rfl | hlt
    · split_ifs at h with h1 h2 h3 h4 h5
      · cases h
      · exact h4 hl2
      · exact h2 hl
    · split_ifs at h with h1 h2 h3 h4 h5
      · cases h
      · exact ih h hlt (by omega) hl hl2
      · exact ih h hlt (by omega) hl hl2

/-! ### The header of a request -/

/-- What the search for the blank line finds in the first `k` bytes. -/
def scan (r : Request) (k : ℕ) : Option (Option ℕ) := headerLoop (cells r.bytes) k 0

theorem cells_bytes (r : Request) {i : ℕ} (hi : i < r.head.length) :
    cells r.bytes i = cells r.head i := by
  unfold cells Request.bytes
  rw [List.getD_append _ _ _ _ hi]

/-- The header is in front of the blank line at its end. -/
theorem head_eq {r : Request} (hr : WellFormed r) :
    ∃ pre, r.head = pre ++ blankLine ∧ r.head.length = pre.length + 4 := by
  obtain ⟨pre, h⟩ := hr.blank
  exact ⟨pre, h.symm, by rw [← h, List.length_append]; rfl⟩

/-- Only the whole header ends with a blank line. -/
theorem found_eq {r : Request} (hr : WellFormed r) {k len : ℕ} (h : scan r k = some (some len))
    (hlen : len ≤ r.head.length) : len = r.head.length := by
  obtain ⟨h1, h2, h3⟩ := headerLoop_found h
  have hs : (r.head.drop (len - 4)).take 4 = blankLine := by
    rw [← slice_cells (by omega), ← h3]
    exact slice_congr fun i _ hi => (cells_bytes r (by omega)).symm
  have hl : r.head.take len = r.head.take (len - 4) ++ blankLine := by
    rw [← hs, ← List.take_add, Nat.sub_add_cancel (by omega)]
  have he := congrArg List.length
    (hr.first (r.head.take len) (List.take_prefix _ _) ⟨_, hl.symm⟩)
  rw [List.length_take] at he
  omega

/-- The search does not go past the header. -/
theorem scan_head {r : Request} (hr : WellFormed r) :
    scan r r.head.length = none ∨ scan r r.head.length = some (some r.head.length) := by
  cases h : scan r r.head.length with
  | none => exact Or.inl rfl
  | some found =>
    right
    cases found with
    | some len =>
      have hlen := (headerLoop_found h).2.1
      rw [found_eq hr h (by omega)]
    | none =>
      obtain ⟨pre, hp, hl⟩ := head_eq hr
      have hcell (i : ℕ) (hi : i < 4) :
          cells r.bytes (r.head.length - 4 + i) = blankLine.getD i 0 := by
        rw [cells_bytes r (by omega), hl, Nat.add_sub_cancel, hp]
        exact getD_blankLine pre i
      have h3 := hcell 3 (by decide)
      have h1 := hcell 1 (by decide)
      rw [show r.head.length - 4 + 3 = r.head.length - 1 by omega] at h3
      rw [show r.head.length - 4 + 1 = r.head.length - 1 - 2 by omega] at h1
      exact absurd h1 (headerLoop_stops h (Nat.zero_le _) (by omega) h3)

/-- **The search over the first bytes of a request** finds nothing before the end of the header unless
it finds an error, and what it finds in the header stays. -/
theorem scan_cases {r : Request} (hr : WellFormed r) (k : ℕ) :
    (k < r.head.length ∧ scan r k = some none) ∨
    (scan r k = none ∧ scan r r.head.length = none) ∨
    (r.head.length ≤ k ∧ scan r k = some (some r.head.length) ∧
      scan r r.head.length = some (some r.head.length)) := by
  rcases Nat.lt_or_ge k r.head.length with hk | hk
  · have hadd := headerLoop_add (cells r.bytes) k (r.head.length - k) 0
    rw [Nat.add_sub_cancel' hk.le] at hadd
    cases h : scan r k with
    | none =>
      unfold scan at h
      rw [h] at hadd
      exact Or.inr (Or.inl ⟨rfl, hadd⟩)
    | some found =>
      cases found with
      | none => exact Or.inl ⟨hk, rfl⟩
      | some len =>
        have hlen := (headerLoop_found h).2.1
        have := found_eq hr h (by omega)
        omega
  · have hadd := headerLoop_add (cells r.bytes) r.head.length (k - r.head.length) 0
    rw [Nat.add_sub_cancel' hk] at hadd
    rcases scan_head hr with h | h
    · rw [show headerLoop (cells r.bytes) r.head.length 0 = none from h] at hadd
      exact Or.inr (Or.inl ⟨hadd, h⟩)
    · rw [show headerLoop (cells r.bytes) r.head.length 0 = some (some r.head.length) from h]
        at hadd
      exact Or.inr (Or.inr ⟨hk, hadd, h⟩)

/-! ### The header of a POST request -/

/-- The loop over a path leaves what is behind the path, and no byte is lost. -/
theorem parsePath_rest {stop : UInt8} {l : List UInt8} {i : ℕ} {path2 path2' : Option ℕ}
    {path rest : List UInt8} (h : parsePath stop l i path2 = some (path, path2', rest)) :
    rest <:+ l ∧ path.length + rest.length = l.length := by
  induction l generalizing i path2 path with
  | nil =>
    cases h
    exact ⟨List.suffix_refl _, rfl⟩
  | cons b l ih =>
    have hnext {i path2 path} {a : UInt8}
        (h : (parsePath stop l i path2).map (fun p => (a :: p.1, p.2)) =
          some (path, path2', rest)) :
        rest <:+ b :: l ∧ path.length + rest.length = (b :: l).length := by
      obtain ⟨⟨path₁, p₁⟩, h₁, he⟩ := Option.map_eq_some_iff.mp h
      cases he
      obtain ⟨hs, hl⟩ := ih h₁
      refine ⟨hs.trans (List.suffix_cons _ _), ?_⟩
      dsimp only
      rw [List.length_cons, List.length_cons]
      omega
    rw [parsePath] at h
    split_ifs at h
    · cases h
      exact ⟨List.suffix_cons _ _, Nat.add_comm _ _⟩
    · exact hnext h
    · exact hnext h

/-- `atol` stays inside a header whose `Content-Length` lines have values. -/
theorem contentLength_behind (behind : List UInt8) {prev : UInt8} {l : List UInt8} (len : ℤ)
    (hvalue : ∀ pre line, prev :: l = pre ++ ('\n'.toUInt8 :: contentLengthKey ++ line) →
      ∃ c ∈ line, isspace c = false)
    (hend : l = [] ∨ ∃ s, l = s ++ [10]) :
    contentLength behind prev l len = contentLength [] prev l len := by
  induction l generalizing prev len with
  | nil => rfl
  | cons b l ih =>
    have hnext (len : ℤ) : contentLength behind b l len = contentLength [] b l len := by
      refine ih len (fun pre line h => hvalue (prev :: pre) line ?_) ?_
      · rw [h]; rfl
      · obtain h | ⟨s, h⟩ := hend
        · cases h
        · cases s with
          | nil => cases h; exact Or.inl rfl
          | cons a s => cases h; exact Or.inr ⟨s, rfl⟩
    rw [contentLength, contentLength]
    split_ifs with h
    · obtain ⟨hb, hprev, hlen, htake⟩ := h
      obtain h | ⟨s, hs⟩ := hend
      · cases h
      · have hl : 16 ≤ s.length := by
          rw [hs, List.length_append, List.length_singleton] at hlen
          omega
        have hdrop : (b :: l).drop 16 = s.drop 16 ++ [10] := by
          rw [hs, List.drop_append_of_le_length hl]
        obtain ⟨c, hc, hsp⟩ := hvalue [] ((b :: l).drop 16) (by
          rw [← htake, hprev, List.nil_append, List.cons_append, List.take_append_drop])
        have hvs : ∃ c ∈ s.drop 16, isspace c = false := by
          rw [hdrop, List.mem_append, List.mem_singleton] at hc
          rcases hc with hc | rfl
          · exact ⟨c, hc, hsp⟩
          · cases hsp
        dsimp only
        rw [hdrop, atol_append hvs, List.append_nil, hnext]
    · exact hnext len

theorem parseHttpPost_behind {r : Request} (hr : WellFormed r) (behind : List UInt8) :
    parseHttpPost r.head behind = parseHttpPost r.head [] := by
  unfold parseHttpPost
  split_ifs
  · rfl
  cases h : parsePath ' '.toUInt8 (r.head.drop 7) 7 none with
  | none => rfl
  | some p =>
    obtain ⟨path, path2, rest⟩ := p
    have hs := (parsePath_rest h).1.trans (List.drop_suffix _ _)
    have hc : contentLength behind 0 rest 0 = contentLength [] 0 rest 0 := by
      refine contentLength_behind behind 0 (fun pre line he => ?_) ?_
      · obtain ⟨front, hf⟩ := hs
        cases pre with
        | nil => cases he
        | cons a pre =>
          cases he
          exact hr.value (front ++ pre) line (hf.symm.trans (List.append_assoc _ _ _).symm)
      · obtain ⟨pre, hp, -⟩ := head_eq hr
        rcases List.eq_nil_or_concat rest with hn | ⟨s, b, hsb⟩
        · exact Or.inl hn
        · right
          refine ⟨s, ?_⟩
          obtain ⟨front, hf⟩ := hs
          have hlast := congrArg List.getLast? hf
          rw [hp, hsb, List.concat_eq_append, ← List.append_assoc, List.getLast?_append,
            List.getLast?_append] at hlast
          simp [blankLine] at hlast
          rw [hsb, List.concat_eq_append, hlast]
    simp only [Option.bind_eq_bind, Option.bind_some, hc]

theorem parseHttpPost_length {r : Request} {behind : List UInt8} {p : HttpPost}
    (hlen : 7 ≤ r.head.length) (h : parseHttpPost r.head behind = some p) :
    p.buf.length = r.head.length := by
  unfold parseHttpPost at h
  split_ifs at h
  obtain ⟨⟨path, path2, rest⟩, hp, h⟩ := Option.bind_eq_some_iff.mp h
  obtain ⟨len, hl, h⟩ := Option.bind_eq_some_iff.mp h
  cases h
  have hs := (parsePath_rest hp).2
  rw [List.length_drop] at hs
  simp only [List.length_append, List.length_take]
  omega

end ChatShow.Antlib.HttpRequest
