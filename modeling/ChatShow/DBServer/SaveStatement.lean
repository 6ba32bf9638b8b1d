import ChatShow.Dependence.CharDefine
import ChatShow.Lib.QuotedLiterals
import Mathlib.Data.Int.Notation
import Mathlib.Algebra.BigOperators.Group.List.Basic
import Mathlib.Algebra.Ring.Nat

/-! # The statement that saves a player

`SavePlayerBaseInfo` has `Execute` write the attributes of a player into the text of a statement,
each string between two quotes as it is, in a buffer of a fixed size. `Faithful` says that the text
is all there and that the database reads the attributes out of it again, each string as one literal,
up to the id of the player in the `where` clause. That is so where the strings are clean and the
text is not too long (`faithful_iff`). -/

namespace ChatShow.DBServer.SaveStatement

open ChatShow.Dependence.CharDefine ChatShow.Lib.QuotedLiterals

/-! ### The text -/

def bytes (s : String) : List UInt8 := s.toList.map Char.toUInt8

def decimal (n : ℤ) : List UInt8 := bytes (toString n)

/-- A part of a format, with the argument that it takes. -/
inductive Piece
  | lit (s : String)
  /-- `%s` -/
  | s (v : List UInt8)
  /-- `%d` and `%lld` -/
  | d (n : ℤ)

def Piece.text : Piece → List UInt8
  | .lit t => bytes t
  | .s v => cStr v
  | .d n => decimal n

def formatted : List Piece → List UInt8
  | [] => []
  | p :: ps => p.text ++ formatted ps

/-- What `vsnprintf` leaves in a buffer, without the NUL behind it. -/
def vsnprintf (size : ℕ) (format : List Piece) : List UInt8 := (formatted format).take (size - 1)

def MYSQL_EXECUTE_BUF : ℕ := 32 * 1024

/-- The text that `Execute` hands to the connection. -/
def execute (format : List Piece) : List UInt8 := vsnprintf (MYSQL_EXECUTE_BUF - 1) format

/-- The format of `SavePlayerBaseInfo`. -/
def savePlayerBaseInfo (info : BaseInfo) : List Piece :=
  [.lit "update RoleInfo set CharName='", .s info.charname, .lit "',wchatname='", .s info.wchatname,
    .lit "',head='", .s info.head, .lit "',sex=", .d (if info.sex then 1 else 0),
    .lit ",country = ", .d info.country.toInt, .lit ",province = ", .d info.province.toInt,
    .lit ",city = ", .d info.city.toInt, .lit ",signature='", .s info.signature,
    .lit "',money = ", .d info.money.toInt, .lit ",turnmoney = ", .d info.turnmoney.toInt,
    .lit ",qrcode = '", .s info.qrcode, .lit "',phone = '", .s info.phone,
    .lit "',year = ", .d info.year.toInt, .lit ",month = ", .d info.month.toInt, .lit ",day = ", .d info.day.toInt,
    .lit " where CharID = ", .d (getPlayerCharid info.charid).toInt, .lit " "]

/-! ### What is read -/

/-- What the escape of a character stands for in a string literal of MySQL; the backslash stays in
front of `%` and `_`. -/
def mysqlEsc (c : UInt8) : Option UInt8 :=
  if c = 48 then some 0
  else if c = 98 then some 8
  else if c = 110 then some 10
  else if c = 114 then some 13
  else if c = 116 then some 9
  else if c = 90 then some 26
  else if c = 37 ∨ c = 95 then none
  else some c

def mysqlQuoting : Quoting UInt8 where
  quote := 39
  escape := 92
  esc := mysqlEsc
  quote_ne := by decide
  esc_quote := by decide
  esc_escape := by decide
  eq_of_special := by
    intro c e h hs
    unfold mysqlEsc at h
    split_ifs at h
    all_goals cases h
    all_goals first | rfl | exact absurd hs (by decide)

/-- A function reads string literals as MySQL does: it is given what is behind the opening quote,
and gives the value and what is behind the literal. -/
structure ReadsLiterals (lexer : List UInt8 → Option (List UInt8 × List UInt8)) : Prop where
  /-- A literal has a closing quote. -/
  unterminated : lexer [] = none
  unterminated_escape : lexer [92] = none
  closed_end : lexer [39] = some ([], [])
  closed : ∀ c l, c ≠ 39 → lexer (39 :: c :: l) = some ([], c :: l)
  /-- Two quotes stand for one. -/
  doubled : ∀ l, lexer (39 :: 39 :: l) = (lexer l).map (Prod.map (39 :: ·) id)
  escaped : ∀ c l, lexer (92 :: c :: l) = (lexer l).map (Prod.map (mysqlQuoting.escaped c ++ ·) id)
  plain : ∀ c l, c ≠ 39 → c ≠ 92 → lexer (c :: l) = (lexer l).map (Prod.map (c :: ·) id)

/-- A part of a statement as the database reads it. -/
inductive Part
  | text (s : String)
  | str (v : List UInt8)
  | int (n : ℤ)

/-- The statement for a player. -/
def statement (info : BaseInfo) : List Part :=
  [.text "update RoleInfo set CharName=", .str info.charname, .text ",wchatname=", .str info.wchatname,
    .text ",head=", .str info.head, .text ",sex=", .int (if info.sex then 1 else 0),
    .text ",country = ", .int info.country.toInt, .text ",province = ", .int info.province.toInt,
    .text ",city = ", .int info.city.toInt, .text ",signature=", .str info.signature,
    .text ",money = ", .int info.money.toInt, .text ",turnmoney = ", .int info.turnmoney.toInt,
    .text ",qrcode = ", .str info.qrcode, .text ",phone = ", .str info.phone,
    .text ",year = ", .int info.year.toInt, .text ",month = ", .int info.month.toInt, .text ",day = ", .int info.day.toInt,
    .text " where CharID = ", .int (getPlayerCharid info.charid).toInt, .text " "]

def isDigit (c : UInt8) : Prop := 48 ≤ c ∧ c ≤ 57

instance (c : UInt8) : Decidable (isDigit c) := inferInstanceAs (Decidable (_ ∧ _))

/-- The text is read as the parts and nothing else; a number ends where no digit follows. -/
def Reads (lexer : List UInt8 → Option (List UInt8 × List UInt8)) : List Part → List UInt8 → Prop
  | [], l => l = []
  | .text s :: ps, l => ∃ l', l = bytes s ++ l' ∧ Reads lexer ps l'
  | .str v :: ps, l => ∃ l₀ l', l = 39 :: l₀ ∧ lexer l₀ = some (v, l') ∧ Reads lexer ps l'
  | .int n :: ps, l => ∃ l', l = decimal n ++ l' ∧ (∀ c ∈ l'.head?, ¬ isDigit c) ∧ Reads lexer ps l'

/-- The statement is not cut off, and the database reads it as the one for the player. -/
def Faithful (lexer : List UInt8 → Option (List UInt8 × List UInt8)) (info : BaseInfo) : Prop :=
  execute (savePlayerBaseInfo info) = formatted (savePlayerBaseInfo info) ∧
    Reads lexer (statement info) (execute (savePlayerBaseInfo info))

/-! ### When it is read -/

/-- No NUL, no quote, and a backslash only in front of `%` and `_`. -/
def Clean (v : List UInt8) : Prop := 0 ∉ v ∧ mysqlQuoting.Clean v

/-- The bytes of a part whose string is clean. -/
def Part.size : Part → ℕ
  | .text s => s.length
  | .str v => v.length + 2
  | .int n => (decimal n).length

def Part.Clean : Part → Prop
  | .str v => SaveStatement.Clean v
  | _ => True

instance : (p : Part) → Decidable p.Clean
  | .str _ => inferInstanceAs (Decidable (_ ∧ _))
  | .text _ | .int _ => .isTrue trivial

variable {lexer : List UInt8 → Option (List UInt8 × List UInt8)} {ps : List Part} {info : BaseInfo}
    {v l l' : List UInt8}

/-- There is one way to read literals. -/
theorem ReadsLiterals.eq (h : ReadsLiterals lexer) {n : ℕ} (hn : l.length < n) :
    lexer l = mysqlQuoting.read l := by
  induction n generalizing l with
  | zero => cases hn
  | succ n ih =>
    cases l with
    | nil => exact h.unterminated
    | cons c l =>
      rw [List.length_cons] at hn
      by_cases hq : c = 39
      · obtain rfl := hq
        cases l with
        | nil => exact h.closed_end
        | cons d l =>
          rw [List.length_cons] at hn
          by_cases hd : d = 39
          · obtain rfl := hd
            rw [h.doubled, ih (by omega)]
            exact (Quoting.read_doubled l).symm
          · rw [h.closed d l hd]
            exact (Quoting.read_closed hd l).symm
      · by_cases he : c = 92
        · obtain rfl := he
          cases l with
          | nil => exact h.unterminated_escape
          | cons d l =>
            rw [List.length_cons] at hn
            rw [h.escaped, ih (by omega)]
            exact (Quoting.read_escaped d l).symm
        · rw [h.plain c l hq he, ih (by omega)]
          exact (Quoting.read_plain (fun hs => hs.elim hq he) l).symm

/-- Parts as they are written. -/
def render : List Part → List UInt8
  | [] => []
  | .text s :: ps => bytes s ++ render ps
  | .str v :: ps => 39 :: (cStr v ++ 39 :: render ps)
  | .int n :: ps => decimal n ++ render ps

/-- A quote at either end of the texts of the format. -/
theorem bytes_opening :
    bytes "update RoleInfo set CharName='" = bytes "update RoleInfo set CharName=" ++ [39] ∧
    bytes ",signature='" = bytes ",signature=" ++ [39] ∧ bytes ",qrcode = '" = bytes ",qrcode = " ++ [39] := by
  decide +kernel

theorem bytes_closing :
    bytes "',sex=" = 39 :: bytes ",sex=" ∧ bytes "',money = " = 39 :: bytes ",money = " ∧
    bytes "',year = " = 39 :: bytes ",year = " := by decide +kernel

theorem bytes_between :
    bytes "',wchatname='" = 39 :: (bytes ",wchatname=" ++ [39]) ∧ bytes "',head='" = 39 :: (bytes ",head=" ++ [39]) ∧
    bytes "',phone = '" = 39 :: (bytes ",phone = " ++ [39]) := by decide +kernel

theorem formatted_eq (info : BaseInfo) :
    formatted (savePlayerBaseInfo info) = render (statement info) := by
  unfold savePlayerBaseInfo statement
  simp only [formatted, render, Piece.text, bytes_opening, bytes_closing, bytes_between,
    List.append_assoc, List.cons_append,
    List.nil_append]

/-- A comma follows each string, and no digit a number. -/
def Separated : List Part → Prop
  | [] => True
  | .text _ :: ps => Separated ps
  | .str _ :: ps => (∃ l, render ps = 44 :: l) ∧ Separated ps
  | .int _ :: ps => (∃ c l, render ps = c :: l ∧ ¬ isDigit c) ∧ Separated ps

theorem separated_statement (info : BaseInfo) : Separated (statement info) := by
  refine ⟨⟨_, rfl⟩, ⟨_, rfl⟩, ⟨_, rfl⟩, ⟨_, _, rfl, by decide⟩, ⟨_, _, rfl, by decide⟩,
    ⟨_, _, rfl, by decide⟩, ⟨_, _, rfl, by decide⟩, ⟨_, rfl⟩, ⟨_, _, rfl, by decide⟩,
    ⟨_, _, rfl, by decide⟩, ⟨_, rfl⟩, ⟨_, rfl⟩, ⟨_, _, rfl, by decide⟩, ⟨_, _, rfl, by decide⟩,
    ⟨_, _, rfl, by decide⟩, ⟨_, _, rfl, by decide⟩, trivial⟩

/-- A string goes on behind its first NUL, if there is one. -/
theorem cStr_append (v : List UInt8) :
    ∃ t, v = cStr v ++ t ∧ (t = [] ∧ 0 ∉ v ∨ ∃ t', t = 0 :: t') := by
  induction v with
  | nil => exact ⟨[], rfl, .inl ⟨rfl, List.not_mem_nil⟩⟩
  | cons c v ih =>
    by_cases hc : c = 0
    · obtain rfl := hc
      exact ⟨0 :: v, rfl, .inr ⟨v, rfl⟩⟩
    · have hcons : cStr (c :: v) = c :: cStr v := List.takeWhile_cons_of_pos (decide_eq_true hc)
      obtain ⟨t, hv, ht⟩ := ih
      refine ⟨t, by rw [hcons, List.cons_append, ← hv], ht.imp_left fun ⟨hnil, hmem⟩ =>
        ⟨hnil, fun h => ?_⟩⟩
      obtain h | h := List.mem_cons.mp h
      · exact hc h.symm
      · exact hmem h

theorem cStr_of_not_mem (h : 0 ∉ v) : cStr v = v := by
  obtain ⟨t, hv, ⟨rfl, -⟩ | ⟨t', rfl⟩⟩ := cStr_append v
  · rw [List.append_nil] at hv
    exact hv.symm
  · exact absurd (hv ▸ List.mem_append_right _ List.mem_cons_self) h

theorem lexer_of_clean (h : ReadsLiterals lexer) (hv : Clean v) (l : List UInt8) :
    lexer (cStr v ++ 39 :: 44 :: l) = some (v, 44 :: l) := by
  rw [h.eq (Nat.lt_succ_self _), cStr_of_not_mem hv.1]
  exact Quoting.read_of_clean (Nat.lt_succ_self _) hv.2 (by decide) l

/-- **Only a clean string is read back.** -/
theorem clean_of_lexer (h : ReadsLiterals lexer)
    (hl : lexer (cStr v ++ 39 :: 44 :: l) = some (v, l')) : Clean v := by
  have hplain : ¬ mysqlQuoting.Special 44 := fun hs => hs.elim (by decide) (by decide)
  rw [h.eq (Nat.lt_succ_self _)] at hl
  obtain ⟨t, hv, ht⟩ := cStr_append v
  have hstart :
      mysqlQuoting.read (cStr v ++ mysqlQuoting.quote :: 44 :: l) = some (cStr v ++ t, l') := by
    rw [← hv]
    exact hl
  have hnext : ∀ t', t ≠ 44 :: t' := by
    rintro t' rfl
    obtain ⟨hnil, -⟩ | ⟨t'', hzero⟩ := ht
    · cases hnil
    · cases hzero
  have hclean := Quoting.clean_of_read (Nat.lt_succ_self _) hplain hstart hnext
  have hread :=
    Quoting.read_of_clean (Nat.lt_succ_self _) hclean
      (by decide : (44 : UInt8) ≠ mysqlQuoting.quote) l
  have hsame : cStr v = cStr v ++ t := (Prod.mk.inj (Option.some.inj (hread.symm.trans hstart))).1
  have hnil : t = [] := List.append_right_eq_self.mp hsame.symm
  obtain ⟨-, hmem⟩ | ⟨t', rfl⟩ := ht
  · exact ⟨hmem, cStr_of_not_mem hmem ▸ hclean⟩
  · cases hnil

/-- The parts are read where the strings are clean. -/
theorem reads_render_iff (h : ReadsLiterals lexer) (hsep : Separated ps) :
    Reads lexer ps (render ps) ↔ ∀ p ∈ ps, p.Clean := by
  induction ps with
  | nil => exact iff_of_true rfl fun p hp => by cases hp
  | cons p ps ih =>
    rw [List.forall_mem_cons]
    cases p with
    | text s =>
      rw [← ih hsep]
      refine ⟨fun ⟨l', hl, hr⟩ => ⟨trivial, ?_⟩, fun ⟨_, hr⟩ => ⟨_, rfl, hr⟩⟩
      exact List.append_cancel_left hl ▸ hr
    | str v =>
      obtain ⟨⟨l, hl⟩, hsep⟩ := hsep
      rw [← ih hsep]
      constructor
      · rintro ⟨l₀, l', hstart, hlex, hr⟩
        obtain rfl := (List.cons.inj hstart).2
        rw [hl] at hlex
        have hclean := clean_of_lexer h hlex
        rw [lexer_of_clean h hclean, ← hl] at hlex
        obtain rfl := (Prod.mk.inj (Option.some.inj hlex)).2
        exact ⟨hclean, hr⟩
      · rintro ⟨hclean, hr⟩
        refine ⟨_, _, rfl, ?_, hr⟩
        rw [hl]
        exact lexer_of_clean h hclean l
    | int n =>
      obtain ⟨⟨c, l, hl, hc⟩, hsep⟩ := hsep
      rw [← ih hsep]
      refine ⟨fun ⟨l', hl', _, hr⟩ => ⟨trivial, ?_⟩, fun ⟨_, hr⟩ => ⟨_, rfl, fun d hd => ?_, hr⟩⟩
      · exact List.append_cancel_left hl' ▸ hr
      · rw [hl] at hd
        exact Option.some.inj hd ▸ hc

theorem length_bytes (s : String) : (bytes s).length = s.length := by
  unfold bytes
  rw [List.length_map, String.length_toList]

theorem length_render (h : ∀ p ∈ ps, p.Clean) : (render ps).length = (ps.map Part.size).sum := by
  induction ps with
  | nil => rfl
  | cons p ps ih =>
    obtain ⟨hp, hps⟩ := List.forall_mem_cons.mp h
    rw [List.map_cons, List.sum_cons, ← ih hps]
    cases p with
    | text s =>
      rw [render, List.length_append, length_bytes]
      rfl
    | str v =>
      rw [render, cStr_of_not_mem hp.1, List.length_cons, List.length_append, List.length_cons,
        Part.size]
      omega
    | int n =>
      rw [render, List.length_append]
      rfl

/-- **Which players are saved with a statement that says what it is to say.** -/
theorem faithful_iff (lexer : List UInt8 → Option (List UInt8 × List UInt8))
    (h : ReadsLiterals lexer) (info : BaseInfo) :
    Faithful lexer info ↔
      (∀ p ∈ statement info, p.Clean) ∧
      ((statement info).map Part.size).sum ≤ MYSQL_EXECUTE_BUF - 2 := by
  have hlen : execute (savePlayerBaseInfo info) = formatted (savePlayerBaseInfo info) ↔
      (render (statement info)).length ≤ MYSQL_EXECUTE_BUF - 2 := by
    unfold execute vsnprintf
    rw [List.take_eq_self_iff, formatted_eq, Nat.sub_sub]
  have hreads : execute (savePlayerBaseInfo info) = formatted (savePlayerBaseInfo info) →
      (Reads lexer (statement info) (execute (savePlayerBaseInfo info)) ↔
        ∀ p ∈ statement info, p.Clean) := fun he => by
    rw [he, formatted_eq]
    exact reads_render_iff h (separated_statement info)
  constructor
  · rintro ⟨he, hr⟩
    have hclean := (hreads he).mp hr
    rw [hlen, length_render hclean] at he
    exact ⟨hclean, he⟩
  · rintro ⟨hclean, hle⟩
    rw [← length_render hclean, ← hlen] at hle
    exact ⟨hle, (hreads hle).mpr hclean⟩

/-! ### A reader of literals, and a player who is not saved -/

theorem readsLiterals_read : ReadsLiterals mysqlQuoting.read where
  unterminated := rfl
  unterminated_escape := rfl
  closed_end := rfl
  closed _ l hc := Quoting.read_closed hc l
  doubled := Quoting.read_doubled
  escaped := Quoting.read_escaped
  plain _ l hq he := Quoting.read_plain (fun hs => hs.elim hq he) l

/-- A player with the name `a\%` and the id 7. -/
theorem faithful_player : Faithful mysqlQuoting.read { charid := 7, charname := [97, 92, 37] } :=
  (faithful_iff mysqlQuoting.read readsLiterals_read _).mpr (by decide +kernel)

/-- A player with the name `'`. -/
theorem not_faithful :
    ReadsLiterals mysqlQuoting.read ∧
      ¬ Faithful mysqlQuoting.read { charid := 7, charname := [39] } := by
  refine ⟨readsLiterals_read, fun ⟨he, hr⟩ => ?_⟩
  rw [he, formatted_eq] at hr
  have hclean := (reads_render_iff readsLiterals_read (separated_statement _)).mp hr (.str [39])
      (by simp [statement])
  exact absurd hclean (by decide)

end ChatShow.DBServer.SaveStatement
