import ChatShow.Antlib.Md5
import ChatShow.Lib.Runs
import Mathlib.Logic.Function.Basic

/-! # Accounts

`handle_usermsg_register` and `handle_usermsg_password`. The database is a table of digests under names,
which is given the texts of statements and reads them; a statement may fail. The register of a name that
is there is answered as if it had been done, and so is a password for a name that is not there; the old
password is not compared with anything. The requests that are done and answered rightly are just those
of `Sound` (`accounts_right`). -/

namespace ChatShow.CSLoginService.Accounts

open ChatShow.Antlib.Md5 ChatShow.Lib.Runs

/-! ### Statements -/

def bytes (s : String) : List UInt8 := s.toList.map Char.toUInt8

/-- A string without a quote and a backslash. -/
def Plain (v : List UInt8) : Prop := 39 ∉ v ∧ 92 ∉ v

instance (v : List UInt8) : Decidable (Plain v) := inferInstanceAs (Decidable (_ ∧ _))

/-- `_table` of `_g_user_server`, which has 32 bytes. -/
structure UserServer where
  table : List UInt8
  length_table : table.length ≤ 31
  plain_table : Plain table

/-- The length of `sql`. -/
def sqlSize : ℕ := 256

def selectHead (table : List UInt8) : List UInt8 :=
  bytes "select psd,state,CharID from " ++ table ++ bytes " where CharName="

def insertHead (table : List UInt8) : List UInt8 :=
  bytes "insert into " ++ table ++ bytes " (CharName,psd,state) values ("

def updateHead (table : List UInt8) : List UInt8 := bytes "update " ++ table ++ bytes " set psd="

/-- The parts of a text with a quote between them. -/
def quoted (parts : List (List UInt8)) : List UInt8 := [39].intercalate parts

/-- The texts of the three statements. -/
def selectText (table name : List UInt8) : List UInt8 := quoted [selectHead table, name, []]

def insertText (table name pswd : List UInt8) : List UInt8 :=
  quoted [insertHead table, name, bytes ",", pswd, bytes ",0)"]

def updateText (table name pswd : List UInt8) : List UInt8 :=
  quoted [updateHead table, pswd, bytes " where CharName=", name, bytes ";"]

/-! ### The database -/

inductive Sql
  | select (name : List UInt8)
  | insert (name psd : List UInt8)
  | update (name psd : List UInt8)

/-- What the database reads: it knows no escapes here. -/
def readSql (table text : List UInt8) : Option Sql :=
  if 92 ∈ text then none
  else
    match text.splitOn 39 with
    | [head, name, []] => if head = selectHead table then some (.select name) else none
    | [head, a, mid, b, tail] =>
      if head = insertHead table ∧ mid = bytes "," ∧ tail = bytes ",0)" then some (.insert a b)
      else if head = updateHead table ∧ mid = bytes " where CharName=" ∧ tail = bytes ";" then
        some (.update b a)
      else none
    | _ => none

/-- The digests of the rows. -/
abbrev Rows := List UInt8 → Option (List UInt8)

/-- A name cannot be inserted twice, and an update of a name that is not there does nothing. -/
def exec (rows : Rows) : Sql → Option Rows
  | .select _ => some rows
  | .insert name psd =>
    match rows name with
    | some _ => none
    | none => some (Function.update rows name (some psd))
  | .update name psd =>
    match rows name with
    | some _ => some (Function.update rows name (some psd))
    | none => some rows

/-- `do_sql`, where the statement fails if `ok` is not set: its result. -/
def doSql (table : List UInt8) (rows : Rows) (sql : List UInt8) (ok : Bool) : ℤ × Rows :=
  if ok then
    match (readSql table sql).bind (exec rows) with
    | some rows' => (0, rows')
    | none => (-1, rows)
  else (-1, rows)

/-- `get_recordset`: `_row_num`, if there is a recordset. -/
def getRecordset (table : List UInt8) (rows : Rows) (sql : List UInt8) (ok : Bool) : Option ℕ :=
  if ok then
    match readSql table sql with
    | some (.select name) => some (if (rows name).isSome then 1 else 0)
    | _ => none
  else none

/-! ### The handlers -/

/-- A request, with which of its statements do not fail. -/
inductive Request
  | register (name password : List UInt8) (select insert : Bool)
  | password (name password newpassword : List UInt8) (update : Bool)

def Request.name : Request → List UInt8
  | .register name _ _ _ => name
  | .password name _ _ _ => name

/-- A field that the table of messages accepts, without a quote and a backslash. -/
def Field (min : ℕ) (v : List UInt8) : Prop :=
  min ≤ v.length ∧ v.length ≤ 33 ∧ 0 ∉ v ∧ Plain v

instance (min : ℕ) (v : List UInt8) : Decidable (Field min v) :=
  inferInstanceAs (Decidable (_ ∧ _ ∧ _ ∧ _))

def Accepted : Request → Prop
  | .register name password _ _ => Field 3 name ∧ Field 6 password
  | .password name password newpassword _ => Field 3 name ∧ Field 6 password ∧ Field 6 newpassword

instance : (r : Request) → Decidable (Accepted r)
  | .register _ _ _ _ => inferInstanceAs (Decidable (Field _ _ ∧ Field _ _))
  | .password _ _ _ _ => inferInstanceAs (Decidable (Field _ _ ∧ Field _ _ ∧ Field _ _))

/-- What became of a request: the rows before and after it, the `result` of its reply, and the texts
that were written into `sql`. -/
structure Entry where
  request : Request
  before : Rows
  after : Rows
  result : ℕ
  texts : List (List UInt8)

/-- `handle_usermsg_register`. -/
def handleRegister (g : UserServer) (rows : Rows) (name password : List UInt8) (select insert : Bool) :
    Rows × ℕ × List (List UInt8) :=
  let sql := selectText g.table name
  match getRecordset g.table rows sql select with
  | some (_ + 1) => (rows, 0, [sql])
  | _ =>
    let pswd := mymd5Encrypt2 name password
    let sql' := insertText g.table name pswd
    let r := doSql g.table rows sql' insert
    (r.2, if 0 = r.1 then 0 else 1, [sql, sql'])

/-- `handle_usermsg_password`: the digest of the old password is overwritten by that of the new one. -/
def handlePassword (g : UserServer) (rows : Rows) (name _password newpassword : List UInt8)
    (update : Bool) : Rows × ℕ × List (List UInt8) :=
  let pswd := mymd5Encrypt2 name newpassword
  let sql := updateText g.table name pswd
  let r := doSql g.table rows sql update
  (r.2, if 0 = r.1 then 0 else 1, [sql])

def handle (g : UserServer) (rows : Rows) : Request → Rows × ℕ × List (List UInt8)
  | .register name password select insert => handleRegister g rows name password select insert
  | .password name password newpassword update => handlePassword g rows name password newpassword update

/-- The database, and what became of the requests so far. -/
structure Service where
  rows : Rows
  log : List Entry := []

def step (g : UserServer) (s : Service) (r : Request) : Option Service :=
  let h := handle g s.rows r
  some { rows := h.1, log := s.log ++ [⟨r, s.rows, h.1, h.2.1, h.2.2⟩] }

/-! ### What is asked -/

/-- A request may change a name: it registers it and it was not there, or has its password. -/
def MayChange (rows : Rows) : Request → Prop
  | .register name _ _ _ => rows name = none
  | .password name password _ _ => rows name = some (mymd5Encrypt2 name password)

/-- The digest of a name changes only through a request for it that may change it; the texts end in
their buffer; and the result is 0 just where the row has been inserted or changed. -/
structure Entry.Right (e : Entry) : Prop where
  authorised : ∀ a, e.after a ≠ e.before a → a = e.request.name ∧ MayChange e.before e.request
  fits : ∀ t ∈ e.texts, t.length < sqlSize
  truthful : e.result = 0 ↔ e.after e.request.name ≠ e.before e.request.name

/-- A register whose select does not fail is for a name that is not there; a password whose update does
not fail is for a name that is there, with its password, and the new digest is another one. -/
def Sound (s : Service) : Request → Prop
  | .register name _ select _ => select = true → s.rows name = none
  | .password name password newpassword update => update = true →
    s.rows name = some (mymd5Encrypt2 name password) ∧
      s.rows name ≠ some (mymd5Encrypt2 name newpassword)

instance (s : Service) : (r : Request) → Decidable (Sound s r)
  | .register .. => inferInstanceAs (Decidable (_ → _))
  | .password .. => inferInstanceAs (Decidable (_ → _ ∧ _))

/-! ### The texts are read as they are meant -/

variable {g : UserServer} {rows : Rows} {name password newpassword pswd : List UInt8}

theorem Field.plain {min : ℕ} {v : List UInt8} (h : Field min v) : Plain v := h.2.2.2

theorem Plain.append {v w : List UInt8} (hv : Plain v) (hw : Plain w) : Plain (v ++ w) :=
  ⟨fun h => (List.mem_append.mp h).elim hv.1 hw.1, fun h => (List.mem_append.mp h).elim hv.2 hw.2⟩

/-- A digest has none of the two characters. -/
theorem plain_mymd5Encrypt2 (input1 input2 : List UInt8) : Plain (mymd5Encrypt2 input1 input2) :=
  ⟨fun h => absurd (mem_mymd5Encrypt2 h) (by decide), fun h => absurd (mem_mymd5Encrypt2 h) (by decide)⟩

theorem plain_selectHead (g : UserServer) : Plain (selectHead g.table) :=
  (Plain.append (by decide) g.plain_table).append (by decide)

theorem plain_insertHead (g : UserServer) : Plain (insertHead g.table) :=
  (Plain.append (by decide) g.plain_table).append (by decide)

theorem plain_updateHead (g : UserServer) : Plain (updateHead g.table) :=
  (Plain.append (by decide) g.plain_table).append (by decide)

/-- The parts of a text are found again. -/
theorem splitOn_quoted {parts : List (List UInt8)} (hp : ∀ p ∈ parts, Plain p) (hne : parts ≠ []) :
    (quoted parts).splitOn 39 = parts :=
  List.splitOn_intercalate 39 (fun p h => (hp p h).1) hne

theorem not_mem_quoted {parts : List (List UInt8)} (hp : ∀ p ∈ parts, Plain p) : 92 ∉ quoted parts := by
  induction parts with
  | nil => exact List.not_mem_nil
  | cons p parts ih =>
    have ih := ih fun q hq => hp q (List.mem_cons_of_mem _ hq)
    have h92 := (hp p List.mem_cons_self).2
    unfold quoted at ih ⊢
    cases parts with
    | nil => rwa [List.intercalate_singleton]
    | cons q parts =>
      rw [List.intercalate_cons_cons]
      intro h
      rcases List.mem_append.mp h with h | h
      · rcases List.mem_append.mp h with h | h
        · exact h92 h
        · exact absurd h (by decide)
      · exact ih h

theorem readSql_select (hn : Plain name) :
    readSql g.table (selectText g.table name) = some (.select name) := by
  have hp : ∀ p ∈ [selectHead g.table, name, []], Plain p := by
    simp only [List.forall_mem_cons]
    exact ⟨plain_selectHead g, hn, by decide, List.forall_mem_nil _⟩
  unfold readSql selectText
  rw [if_neg (not_mem_quoted hp), splitOn_quoted hp (List.cons_ne_nil _ _)]
  exact if_pos rfl

theorem readSql_insert (hn : Plain name) (hp : Plain pswd) :
    readSql g.table (insertText g.table name pswd) = some (.insert name pswd) := by
  have hp : ∀ p ∈ [insertHead g.table, name, bytes ",", pswd, bytes ",0)"], Plain p := by
    simp only [List.forall_mem_cons]
    exact ⟨plain_insertHead g, hn, by decide, hp, by decide, List.forall_mem_nil _⟩
  unfold readSql insertText
  rw [if_neg (not_mem_quoted hp), splitOn_quoted hp (List.cons_ne_nil _ _)]
  exact if_pos ⟨rfl, rfl, rfl⟩

theorem readSql_update (hn : Plain name) (hp : Plain pswd) :
    readSql g.table (updateText g.table name pswd) = some (.update name pswd) := by
  have hp : ∀ p ∈ [updateHead g.table, pswd, bytes " where CharName=", name, bytes ";"], Plain p := by
    simp only [List.forall_mem_cons]
    exact ⟨plain_updateHead g, hp, by decide, hn, by decide, List.forall_mem_nil _⟩
  have hmid : ¬ (updateHead g.table = insertHead g.table ∧ bytes " where CharName=" = bytes "," ∧
      bytes ";" = bytes ",0)") := fun h => absurd h.2.1 (by decide)
  unfold readSql updateText
  rw [if_neg (not_mem_quoted hp), splitOn_quoted hp (List.cons_ne_nil _ _)]
  exact (if_neg hmid).trans (if_pos ⟨rfl, rfl, rfl⟩)

theorem length_selectText (hn : name.length ≤ 33) : (selectText g.table name).length < sqlSize := by
  have ht := g.length_table
  have h₁ : (bytes "select psd,state,CharID from ").length = 29 := by decide
  have h₂ : (bytes " where CharName=").length = 16 := by decide
  simp only [selectText, quoted, selectHead, List.intercalate_cons_cons, List.intercalate_singleton,
    List.length_append, List.length_singleton, List.length_nil, h₁, h₂, sqlSize]
  omega

theorem length_insertText (hn : name.length ≤ 33) (hp : pswd.length = 32) :
    (insertText g.table name pswd).length < sqlSize := by
  have ht := g.length_table
  have h₁ : (bytes "insert into ").length = 12 := by decide
  have h₂ : (bytes " (CharName,psd,state) values (").length = 30 := by decide
  have h₃ : (bytes ",").length = 1 := by decide
  have h₄ : (bytes ",0)").length = 3 := by decide
  simp only [insertText, quoted, insertHead, List.intercalate_cons_cons, List.intercalate_singleton,
    List.length_append, List.length_singleton, h₁, h₂, h₃, h₄, sqlSize]
  omega

theorem length_updateText (hn : name.length ≤ 33) (hp : pswd.length = 32) :
    (updateText g.table name pswd).length < sqlSize := by
  have ht := g.length_table
  have h₁ : (bytes "update ").length = 7 := by decide
  have h₂ : (bytes " set psd=").length = 9 := by decide
  have h₃ : (bytes " where CharName=").length = 16 := by decide
  have h₄ : (bytes ";").length = 1 := by decide
  simp only [updateText, quoted, updateHead, List.intercalate_cons_cons, List.intercalate_singleton,
    List.length_append, List.length_singleton, h₁, h₂, h₃, h₄, sqlSize]
  omega

/-! ### What the statements do -/

theorem getRecordset_select (hn : Plain name) (ok : Bool) :
    getRecordset g.table rows (selectText g.table name) ok =
      if ok then some (if (rows name).isSome then 1 else 0) else none := by
  unfold getRecordset
  rw [readSql_select hn]

theorem exec_insert : exec rows (.insert name pswd) =
    if rows name = none then some (Function.update rows name (some pswd)) else none := by
  unfold exec
  dsimp only
  rcases rows name with _ | d
  · rfl
  · rfl

theorem exec_update : exec rows (.update name pswd) =
    some (if rows name = none then rows else Function.update rows name (some pswd)) := by
  unfold exec
  dsimp only
  rcases rows name with _ | d
  · rfl
  · rfl

/-- A name that is not there is inserted, if the statement does not fail. -/
theorem doSql_insert (hn : Plain name) (hp : Plain pswd) (ok : Bool) :
    doSql g.table rows (insertText g.table name pswd) ok =
      if ok = true ∧ rows name = none then (0, Function.update rows name (some pswd)) else (-1, rows) := by
  unfold doSql
  rw [readSql_insert hn hp, Option.bind_some, exec_insert]
  by_cases hr : rows name = none
  · rw [if_pos hr]
    cases ok with
    | false => rw [if_neg Bool.false_ne_true, if_neg fun h => Bool.false_ne_true h.1]
    | true => rw [if_pos rfl, if_pos ⟨rfl, hr⟩]
  · have hno : ¬ (ok = true ∧ rows name = none) := fun h => hr h.2
    rw [if_neg hr, if_neg hno]
    exact ite_self _

/-- An update that does not fail is a success, whether the name is there or not. -/
theorem doSql_update (hn : Plain name) (hp : Plain pswd) (ok : Bool) :
    doSql g.table rows (updateText g.table name pswd) ok =
      if ok = true then (0, if rows name = none then rows else Function.update rows name (some pswd))
      else (-1, rows) := by
  unfold doSql
  rw [readSql_update hn hp, Option.bind_some, exec_update]

/-! ### One request -/

variable {e : Entry}

/-- A request that changes nothing is right where it says so. -/
theorem right_unchanged (ha : e.after = e.before) (hr : e.result ≠ 0)
    (hf : ∀ t ∈ e.texts, t.length < sqlSize) : e.Right where
  authorised a h := absurd (congrFun ha a) h
  fits := hf
  truthful := ⟨fun h => absurd h hr, fun h => absurd (congrFun ha _) h⟩

/-- A request that writes a digest is right just where it may and the digest is another one. -/
theorem right_written (ha : e.after = Function.update e.before e.request.name (some pswd))
    (hr : e.result = 0) (hf : ∀ t ∈ e.texts, t.length < sqlSize) :
    e.Right ↔ MayChange e.before e.request ∧ e.before e.request.name ≠ some pswd := by
  have hname : e.after e.request.name = some pswd := by
    rw [ha, Function.update_self]
  constructor
  · intro h
    have hne := h.truthful.mp hr
    rw [hname] at hne
    exact ⟨(h.authorised e.request.name (by rwa [hname])).2, hne.symm⟩
  · rintro ⟨hmay, hne⟩
    refine ⟨fun a hch => ⟨?_, hmay⟩, hf, fun _ => ?_, fun _ => hr⟩
    · by_contra hne
      rw [ha, Function.update_of_ne hne] at hch
      exact hch rfl
    · rw [hname]
      exact hne.symm

/-- A request that is answered with 0 and changes nothing is not right. -/
theorem not_right (ha : e.after = e.before) (hr : e.result = 0) : ¬ e.Right :=
  fun h => h.truthful.mp hr (congrFun ha _)

/-- What becomes of a request. -/
def entry (g : UserServer) (rows : Rows) (r : Request) : Entry :=
  let h := handle g rows r
  ⟨r, rows, h.1, h.2.1, h.2.2⟩

theorem entry_eq {r : Request} {after : Rows} {result : ℕ} {texts : List (List UInt8)}
    (h : handle g rows r = (after, result, texts)) :
    entry g rows r = ⟨r, rows, after, result, texts⟩ := by
  unfold entry
  rw [h]

/-- The register of a name that the select finds. -/
theorem handleRegister_there (hn : Plain name) (insert : Bool) (hr : rows name ≠ none) :
    handleRegister g rows name password true insert = (rows, 0, [selectText g.table name]) := by
  unfold handleRegister
  dsimp only
  rw [getRecordset_select hn, if_pos rfl, if_pos (Option.isSome_iff_ne_none.mpr hr)]

/-- The register of a name that the select does not find. -/
theorem handleRegister_insert (hn : Plain name) {select insert : Bool}
    (hr : select = true → rows name = none) :
    handleRegister g rows name password select insert =
      if insert = true ∧ rows name = none then
        (Function.update rows name (some (mymd5Encrypt2 name password)), 0,
          [selectText g.table name, insertText g.table name (mymd5Encrypt2 name password)])
      else (rows, 1, [selectText g.table name, insertText g.table name (mymd5Encrypt2 name password)]) := by
  have hrec : getRecordset g.table rows (selectText g.table name) select = none ∨
      getRecordset g.table rows (selectText g.table name) select = some 0 := by
    rw [getRecordset_select hn]
    cases select with
    | false => exact Or.inl rfl
    | true =>
      rw [hr rfl]
      exact Or.inr rfl
  unfold handleRegister
  dsimp only
  rw [doSql_insert hn (plain_mymd5Encrypt2 ..)]
  by_cases hi : insert = true ∧ rows name = none
  · rw [if_pos hi, if_pos hi]
    rcases hrec with hrec | hrec
    · rw [hrec]
      rfl
    · rw [hrec]
      rfl
  · rw [if_neg hi, if_neg hi]
    rcases hrec with hrec | hrec
    · rw [hrec]
      rfl
    · rw [hrec]
      rfl

theorem register_right {select insert : Bool} (s : Service) (hn : Field 3 name) :
    (entry g s.rows (.register name password select insert)).Right ↔
      Sound s (.register name password select insert) := by
  by_cases hs : select = true → s.rows name = none
  · refine iff_of_true ?_ hs
    have hfits : ∀ t ∈ [selectText g.table name, insertText g.table name (mymd5Encrypt2 name password)],
        t.length < sqlSize := by
      simp only [List.forall_mem_cons]
      exact ⟨length_selectText hn.2.1, length_insertText hn.2.1 (length_mymd5Encrypt2 ..),
        List.forall_mem_nil _⟩
    have hh : handle g s.rows (.register name password select insert) = _ :=
      handleRegister_insert hn.plain hs
    by_cases hi : insert = true ∧ s.rows name = none
    · rw [if_pos hi] at hh
      rw [entry_eq hh, right_written rfl rfl hfits]
      refine ⟨hi.2, ?_⟩
      dsimp only [Request.name]
      rw [hi.2]
      exact nofun
    · rw [if_neg hi] at hh
      rw [entry_eq hh]
      exact right_unchanged rfl Nat.one_ne_zero hfits
  · have hs' : select = true ∧ s.rows name ≠ none := by
      by_contra hc
      exact hs fun h => by_contra fun hr => hc ⟨h, hr⟩
    obtain rfl := hs'.1
    have hh : handle g s.rows (.register name password true insert) = _ :=
      handleRegister_there hn.plain insert hs'.2
    rw [entry_eq hh]
    exact iff_of_false (not_right rfl rfl) hs

theorem handlePassword_true (hn : Plain name) (password newpassword : List UInt8) :
    handlePassword g rows name password newpassword true =
      (if rows name = none then rows else Function.update rows name (some (mymd5Encrypt2 name newpassword)),
        0, [updateText g.table name (mymd5Encrypt2 name newpassword)]) := by
  unfold handlePassword
  dsimp only
  rw [doSql_update hn (plain_mymd5Encrypt2 ..), if_pos rfl]
  rfl

theorem handlePassword_false (hn : Plain name) (password newpassword : List UInt8) :
    handlePassword g rows name password newpassword false =
      (rows, 1, [updateText g.table name (mymd5Encrypt2 name newpassword)]) := by
  unfold handlePassword
  dsimp only
  rw [doSql_update hn (plain_mymd5Encrypt2 ..), if_neg Bool.false_ne_true]
  rfl

theorem password_right {update : Bool} (s : Service) (hn : Field 3 name) :
    (entry g s.rows (.password name password newpassword update)).Right ↔
      Sound s (.password name password newpassword update) := by
  have hfits : ∀ t ∈ [updateText g.table name (mymd5Encrypt2 name newpassword)], t.length < sqlSize := by
    simp only [List.forall_mem_cons]
    exact ⟨length_updateText hn.2.1 (length_mymd5Encrypt2 ..), List.forall_mem_nil _⟩
  cases update with
  | false =>
    have hh : handle g s.rows (.password name password newpassword false) = _ :=
      handlePassword_false hn.plain password newpassword
    rw [entry_eq hh]
    exact iff_of_true (right_unchanged rfl Nat.one_ne_zero hfits) fun h => absurd h Bool.false_ne_true
  | true =>
    have hh : handle g s.rows (.password name password newpassword true) = _ :=
      handlePassword_true hn.plain password newpassword
    have hsound : Sound s (.password name password newpassword true) ↔
        s.rows name = some (mymd5Encrypt2 name password) ∧
          s.rows name ≠ some (mymd5Encrypt2 name newpassword) := ⟨fun h => h rfl, fun h _ => h⟩
    rw [hsound]
    by_cases hr : s.rows name = none
    · rw [if_pos hr] at hh
      rw [entry_eq hh]
      refine iff_of_false (not_right rfl rfl) fun h => ?_
      rw [hr] at h
      cases h.1
    · rw [if_neg hr] at hh
      rw [entry_eq hh]
      exact right_written rfl rfl hfits

/-! ### Runs -/

theorem log_right {s s' : Service} {l : List Request} (h : run (step g) s l = some s')
    (hl : ∀ r ∈ l, Accepted r) :
    (∀ e ∈ s'.log, e.Right) ↔ (∀ e ∈ s.log, e.Right) ∧ Along (step g) Sound s l := by
  induction l generalizing s with
  | nil =>
    cases h
    exact (and_iff_left trivial).symm
  | cons r l ih =>
    obtain ⟨s₁, h₁, h₂⟩ := run_cons_some.mp h
    have hr : (entry g s.rows r).Right ↔ Sound s r := by
      have hacc := hl r List.mem_cons_self
      cases r with
      | register => exact register_right s hacc.1
      | password => exact password_right s hacc.1
    have hlog : s₁.log = s.log ++ [entry g s.rows r] := by
      cases h₁
      rfl
    rw [ih h₂ fun r hr => hl r (List.mem_cons_of_mem _ hr), along_cons_some h₁, hlog,
      List.forall_mem_append, List.forall_mem_singleton, hr, and_assoc]

/-- **Each request of a run is authorised, fits its buffer and is answered truthfully just where every
step of the run is sound.** -/
theorem accounts_right {rows : Rows} {s : Service} {l : List Request}
    (h : run (step g) { rows := rows } l = some s) (hl : ∀ r ∈ l, Accepted r) :
    (∀ e ∈ s.log, e.Right) ↔ Along (step g) Sound { rows := rows } l := by
  rw [log_right h hl]
  exact and_iff_right nofun

/-- The table is called user. -/
def userServer : UserServer where
  table := bytes "user"
  length_table := by decide
  plain_table := by decide

/-- A name is registered, its password is changed, and an update fails. -/
def changed : List Request :=
  [.register (bytes "bob") (bytes "secret") true true,
    .password (bytes "bob") (bytes "secret") (bytes "hidden") true,
    .password (bytes "bob") (bytes "secret") (bytes "public") false]

theorem accounts_right_changed : ∃ s, run (step userServer) { rows := fun _ => none } changed = some s ∧
    s.rows (bytes "bob") = some (mymd5Encrypt2 (bytes "bob") (bytes "hidden")) ∧
    ((∀ e ∈ s.log, e.Right) ↔ Along (step userServer) Sound { rows := fun _ => none } changed) := by
  have hrow : (run (step userServer) { rows := fun _ => none } changed).map (fun s => s.rows (bytes "bob")) =
      some (some (mymd5Encrypt2 (bytes "bob") (bytes "hidden"))) := by decide +kernel
  obtain ⟨s, hs, hrow⟩ := Option.map_eq_some_iff.mp hrow
  exact ⟨s, hs, hrow, accounts_right hs (by decide +kernel)⟩

/-- A name is registered twice; its password is changed with a wrong old one, and so is that of a name which
is not there. -/
def unsound : List Request :=
  [.register (bytes "bob") (bytes "secret") true true, .register (bytes "bob") (bytes "public") true true,
    .password (bytes "bob") (bytes "wrong1") (bytes "hidden") true,
    .password (bytes "eve") (bytes "secret") (bytes "hidden") true]

/-- A request is answered with 0 and changes nothing. -/
def pretends (e : Entry) : Bool := e.result = 0 ∧ e.after e.request.name = e.before e.request.name

/-- A request changes a digest that is not that of the password it has. -/
def breaksIn (e : Entry) : Bool :=
  match e.request with
  | .register _ _ _ _ => false
  | .password name password _ _ =>
    e.after name ≠ e.before name ∧ e.before name ≠ some (mymd5Encrypt2 name password)

theorem accounts_wrong :
    (run (step userServer) { rows := fun _ => none } unsound).map (fun s => s.log.map pretends) =
      some [false, true, false, true] ∧
    (run (step userServer) { rows := fun _ => none } unsound).map (fun s => s.log.map breaksIn) =
      some [false, false, true, false] := by
  decide +kernel

end ChatShow.CSLoginService.Accounts
