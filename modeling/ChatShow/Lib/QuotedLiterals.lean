import Mathlib.Data.List.Basic
import Mathlib.Tactic.Common

/-! # Quoted literals

A literal ends at a quote that no other one follows; two of them stand for one. An escape character
gives the one behind it another meaning, or stays in front of it. Text is put between two quotes as
it is here: it is read back where it is `Clean`, that is where no quote is in it and an escape
character only where it stays (`read_of_clean`), and nowhere else (`clean_of_read`). -/

namespace ChatShow.Lib.QuotedLiterals

variable {α : Type*}

/-- The quote, the escape character, and what the escape of a character stands for, unless the two
stay. -/
structure Quoting (α : Type*) where
  quote : α
  escape : α
  esc : α → Option α
  quote_ne : quote ≠ escape
  esc_quote : esc quote = some quote
  esc_escape : esc escape = some escape
  /-- Only a quote and the escape character stand for themselves. -/
  eq_of_special : ∀ c e, esc c = some e → e = quote ∨ e = escape → e = c

variable [DecidableEq α] (Q : Quoting α)

namespace Quoting

/-- What an escape stands for. -/
def escaped (c : α) : List α :=
  match Q.esc c with
  | some e => [e]
  | none => [Q.escape, c]

/-- The literal whose opening quote has been read: its value, and what is behind it. -/
def read : List α → Option (List α × List α)
  | [] => none
  | c :: l =>
    if c = Q.quote then
      match l with
      | [] => some ([], [])
      | d :: l' => if d = Q.quote then (read l').map (Prod.map (Q.quote :: ·) id) else some ([], l)
    else if c = Q.escape then
      match l with
      | [] => none
      | d :: l' => (read l').map (Prod.map (Q.escaped d ++ ·) id)
    else (read l).map (Prod.map (c :: ·) id)

/-- Text that stands for itself. -/
def Clean : List α → Prop
  | [] => True
  | c :: l =>
    if c = Q.escape then
      match l with
      | [] => False
      | d :: l' => Q.esc d = none ∧ Clean l'
    else c ≠ Q.quote ∧ Clean l

instance decidableClean : (l : List α) → Decidable (Q.Clean l)
  | [] => .isTrue trivial
  | [c] => decidable_of_iff (c ≠ Q.escape ∧ c ≠ Q.quote) (by
      rw [Clean.eq_def]
      by_cases hc : c = Q.escape
      · simp [hc]
      · simp [hc, Clean])
  | c :: d :: l =>
    have := decidableClean l
    have := decidableClean (d :: l)
    decidable_of_iff (if c = Q.escape then (Q.esc d).isNone = true ∧ Q.Clean l
      else c ≠ Q.quote ∧ Q.Clean (d :: l)) (by
      rw [Clean.eq_def Q (c :: d :: l), Option.isNone_iff_eq_none])

/-! ### How a literal is read -/

def Special (c : α) : Prop := c = Q.quote ∨ c = Q.escape

variable {Q} {X T U t l' rest : List α} {a b c s y z : α}

theorem read_doubled (l : List α) :
    Q.read (Q.quote :: Q.quote :: l) = (Q.read l).map (Prod.map (Q.quote :: ·) id) := by
  rw [read.eq_def]
  dsimp only
  rw [if_pos rfl, if_pos rfl]

theorem read_closed (hc : c ≠ Q.quote) (l : List α) :
    Q.read (Q.quote :: c :: l) = some ([], c :: l) := by
  rw [read.eq_def]
  dsimp only
  rw [if_pos rfl, if_neg hc]

theorem read_escaped (c : α) (l : List α) :
    Q.read (Q.escape :: c :: l) = (Q.read l).map (Prod.map (Q.escaped c ++ ·) id) := by
  rw [read.eq_def]
  dsimp only
  rw [if_neg Q.quote_ne.symm, if_pos rfl]

theorem read_plain (hc : ¬ Q.Special c) (l : List α) :
    Q.read (c :: l) = (Q.read l).map (Prod.map (c :: ·) id) := by
  rw [read.eq_def]
  dsimp only
  rw [if_neg fun h => hc (.inl h), if_neg fun h => hc (.inr h)]

theorem clean_escape (c : α) (l : List α) :
    Q.Clean (Q.escape :: c :: l) ↔ Q.esc c = none ∧ Q.Clean l := by
  rw [Clean.eq_def]
  dsimp only
  rw [if_pos rfl]

theorem clean_plain (hc : ¬ Q.Special c) (l : List α) : Q.Clean (c :: l) ↔ Q.Clean l := by
  rw [Clean.eq_def]
  dsimp only
  rw [if_neg fun h => hc (.inr h)]
  exact and_iff_right fun h => hc (.inl h)

omit [DecidableEq α] in
theorem map_value {f : List α → List α} {o : Option (List α × List α)} {v : List α}
    (h : o.map (Prod.map f id) = some (v, l')) : ∃ v', o = some (v', l') ∧ f v' = v := by
  obtain ⟨⟨v', r⟩, ho, he⟩ := Option.map_eq_some_iff.mp h
  cases he
  exact ⟨v', ho, rfl⟩

/-! ### What is read back -/

/-- Clean text is read back. -/
theorem read_of_clean {n : ℕ} (hn : X.length < n) (h : Q.Clean X) (hc : c ≠ Q.quote) (rest : List α) :
    Q.read (X ++ Q.quote :: c :: rest) = some (X, c :: rest) := by
  induction n generalizing X with
  | zero => cases hn
  | succ n ih =>
    cases X with
    | nil => exact read_closed hc rest
    | cons a X =>
      rw [List.length_cons] at hn
      rw [Clean.eq_def] at h
      dsimp only at h
      split_ifs at h with ha
      · obtain rfl := ha
        cases X with
        | nil => cases h
        | cons b X =>
          rw [List.length_cons] at hn
          have hesc : Q.escaped b = [Q.escape, b] := by
            unfold escaped
            rw [h.1]
          rw [List.cons_append, List.cons_append, read_escaped, ih (by omega) h.2, hesc]
          rfl
      · have hplain : ¬ Q.Special a := fun hs => hs.elim h.1 ha
        rw [List.cons_append, read_plain hplain, ih (by omega) h.2]
        rfl

omit [DecidableEq α] in
/-- Of special characters one behind the other, the second is special. -/
theorem special_second (hne : U ≠ []) (hU : ∀ a ∈ U, Q.Special a) (hs : Q.Special s)
    (h : U ++ s :: X = y :: z :: T) : Q.Special z := by
  cases U with
  | nil => exact absurd rfl hne
  | cons u U =>
    cases U with
    | nil =>
      cases h
      exact hs
    | cons u' U =>
      cases h
      exact hU _ (List.mem_cons_of_mem _ List.mem_cons_self)

/-- A quote or an escape character in front of the closing quote takes it into the value, and what
is behind it. -/
theorem next_of_read (hc : ¬ Q.Special c) {v : List α} (ha : Q.Special a)
    (h : Q.read (a :: Q.quote :: c :: rest) = some (v, l')) : ∃ v', v = Q.quote :: c :: v' := by
  have hesc : Q.escaped Q.quote = [Q.quote] := by
    unfold escaped
    rw [Q.esc_quote]
  obtain rfl | rfl := ha
  · rw [read_doubled, read_plain hc] at h
    obtain ⟨v₁, h₁, rfl⟩ := map_value h
    obtain ⟨v₂, h₂, rfl⟩ := map_value h₁
    exact ⟨v₂, rfl⟩
  · rw [read_escaped, hesc, read_plain hc] at h
    obtain ⟨v₁, h₁, rfl⟩ := map_value h
    obtain ⟨v₂, h₂, rfl⟩ := map_value h₁
    exact ⟨v₂, rfl⟩

omit [DecidableEq α] in
theorem escaped_cases (b : α) : Q.escaped b = [Q.escape, b] ∧ ¬ Q.Special b ∧ Q.esc b = none ∨
    ∃ e, Q.escaped b = [e] ∧ (Q.Special e → e = b) := by
  unfold escaped
  cases he : Q.esc b with
  | none =>
    refine .inl ⟨rfl, fun hs => ?_, rfl⟩
    obtain rfl | rfl := hs
    · rw [Q.esc_quote] at he
      cases he
    · rw [Q.esc_escape] at he
      cases he
  | some e => exact .inr ⟨e, rfl, Q.eq_of_special b e he⟩

/-- A value that is behind the text by special characters does not catch up with it. -/
theorem not_read_behind {n : ℕ} (hn : T.length < n) (hne : U ≠ []) (hU : ∀ a ∈ U, Q.Special a)
    (hc : ¬ Q.Special c)
    (h : Q.read (T ++ Q.quote :: c :: rest) = some (U ++ (T ++ t), l')) : False := by
  induction n generalizing T U with
  | zero => cases hn
  | succ n ih =>
    obtain ⟨u, U', rfl⟩ := List.exists_cons_of_ne_nil hne
    have hu : Q.Special u := hU u List.mem_cons_self
    cases T with
    | nil =>
      rw [List.nil_append, read_closed fun he => hc (.inl he)] at h
      cases h
    | cons a T =>
      rw [List.length_cons] at hn
      by_cases ha : Q.Special a
      · cases T with
        | nil =>
          obtain ⟨v, hv⟩ := next_of_read hc ha h
          exact hc (special_second hne hU ha hv)
        | cons b T =>
          rw [List.length_cons] at hn
          -- two special characters of the text give one of the value, which is then behind by one more
          have hstep : Q.Special b → ∀ v, Q.read (T ++ Q.quote :: c :: rest) = some (v, l') →
              v = U' ++ (a :: b :: T ++ t) → False := by
            rintro hb v hv rfl
            have hU' : ∀ d ∈ U' ++ [a, b], Q.Special d := fun d hd => by
              obtain hd | hd := List.mem_append.mp hd
              · exact hU d (List.mem_cons_of_mem _ hd)
              · obtain rfl | hd := List.mem_cons.mp hd
                · exact ha
                · exact List.mem_singleton.mp hd ▸ hb
            refine ih (by omega)
              (List.append_ne_nil_of_right_ne_nil U' (List.cons_ne_nil a [b])) hU' (hv.trans ?_)
            rw [List.append_assoc]
            rfl
          obtain rfl | rfl := ha
          · by_cases hb : b = Q.quote
            · obtain rfl := hb
              rw [List.cons_append, List.cons_append, read_doubled] at h
              obtain ⟨v, hv, he⟩ := map_value h
              exact hstep (.inl rfl) v hv (List.cons.inj he).2
            · rw [List.cons_append, List.cons_append, read_closed hb] at h
              cases h
          · rw [List.cons_append, List.cons_append, read_escaped] at h
            obtain ⟨v, hv, he⟩ := map_value h
            obtain ⟨hesc, hb, -⟩ | ⟨e, hesc, hspecial⟩ := Q.escaped_cases b
            · rw [hesc] at he
              exact hb (special_second hne hU (.inr rfl) he.symm)
            · rw [hesc] at he
              obtain ⟨rfl, hv'⟩ := List.cons.inj he
              exact hstep (hspecial hu ▸ hu) v hv hv'
      · rw [List.cons_append, read_plain ha] at h
        obtain ⟨v, -, hv⟩ := map_value h
        exact ha ((List.cons.inj hv).1 ▸ hu)

/-- **Only clean text is read back**, or is what a value begins with that goes on with the character
behind the closing quote. -/
theorem clean_of_read {n : ℕ} (hn : X.length < n) (hc : ¬ Q.Special c)
    (h : Q.read (X ++ Q.quote :: c :: rest) = some (X ++ t, l')) (ht : ∀ t', t ≠ c :: t') :
    Q.Clean X := by
  induction n generalizing X with
  | zero => cases hn
  | succ n ih =>
    cases X with
    | nil => exact trivial
    | cons a X =>
      rw [List.length_cons] at hn
      by_cases ha : Q.Special a
      · cases X with
        | nil =>
          obtain ⟨v, hv⟩ := next_of_read hc ha h
          exact absurd (List.cons.inj hv).2 (ht v)
        | cons b X =>
          rw [List.length_cons] at hn
          have hbehind : ∀ s, Q.Special s →
              Q.read (X ++ Q.quote :: c :: rest) = some (s :: (X ++ t), l') → False :=
            fun s hs hv => not_read_behind (Nat.lt_succ_self _) (List.cons_ne_nil s [])
              (fun d hd => List.mem_singleton.mp hd ▸ hs) hc hv
          obtain rfl | rfl := ha
          · by_cases hb : b = Q.quote
            · obtain rfl := hb
              rw [List.cons_append, List.cons_append, read_doubled] at h
              obtain ⟨v, hv, he⟩ := map_value h
              exact (hbehind Q.quote (.inl rfl)
                (hv.trans (congrArg (fun x => some (x, l')) (List.cons.inj he).2))).elim
            · rw [List.cons_append, List.cons_append, read_closed hb] at h
              cases h
          · rw [List.cons_append, List.cons_append, read_escaped] at h
            obtain ⟨v, hv, he⟩ := map_value h
            obtain ⟨hesc, hb, hnone⟩ | ⟨e, hesc, hspecial⟩ := Q.escaped_cases b
            · rw [hesc] at he
              obtain rfl := (List.cons.inj (List.cons.inj he).2).2
              exact (clean_escape b X).mpr ⟨hnone, ih (by omega) hv⟩
            · rw [hesc] at he
              obtain ⟨rfl, hv'⟩ := List.cons.inj he
              obtain rfl := hspecial (.inr rfl)
              exact (hbehind Q.escape (.inr rfl)
                (hv.trans (congrArg (fun x => some (x, l')) hv'))).elim
      · rw [List.cons_append, read_plain ha] at h
        obtain ⟨v, hv, he⟩ := map_value h
        obtain rfl := (List.cons.inj he).2
        exact (clean_plain ha X).mpr (ih (by omega) hv)

end Quoting

end ChatShow.Lib.QuotedLiterals
