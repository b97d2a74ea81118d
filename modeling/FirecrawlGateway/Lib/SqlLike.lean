import Mathlib.Data.List.Infix
import Mathlib.Tactic

/-!
# `LIKE`

Matching of SQL's `LIKE ... ESCAPE ...` over any alphabet: `%` is any text, `_` any character, and a
character after the escape character stands for itself. What a pattern and then another one match is
matched by them in a row, and an escaped text is matched by itself alone.
-/

namespace SqlLike

variable {α : Type*} [DecidableEq α]

/-! ## Patterns -/

/-- The characters with a meaning of their own. -/
structure Wildcards (α : Type*) where
  anyString : α
  anyChar : α
  escape : α
  anyString_ne_escape : anyString ≠ escape

inductive Token (α : Type*)
  | literal (a : α)
  | anyChar
  | anyString
deriving DecidableEq, Repr

/-- What a character is that is not the escape character. -/
def token (w : Wildcards α) (a : α) : Token α :=
  if a = w.anyString then .anyString else if a = w.anyChar then .anyChar else .literal a

/-- A pattern may not end with the escape character. -/
def tokens (w : Wildcards α) : List α → Option (List (Token α))
  | [] => some []
  | [a] => if a = w.escape then none else some [token w a]
  | a :: b :: p =>
    if a = w.escape then (tokens w p).map (.literal b :: ·)
    else (tokens w (b :: p)).map (token w a :: ·)

def accepts : List (Token α) → List α → Bool
  | [], t => t.isEmpty
  | .literal a :: p, t => t.head? = some a && accepts p t.tail
  | .anyChar :: p, t => t ≠ [] && accepts p t.tail
  | .anyString :: p, t => t.tails.any (accepts p)

/-- `text LIKE pattern`; `none` is an error. -/
def like (w : Wildcards α) (text pattern : List α) : Option Bool :=
  (tokens w pattern).map (accepts · text)

/-- A text with the escape character before each character with a meaning. -/
def escape (w : Wildcards α) (s : List α) : List α :=
  s.flatMap fun a => if a = w.escape ∨ a = w.anyString ∨ a = w.anyChar then [w.escape, a] else [a]

/-! ## Matching -/

lemma accepts_anyString {p : List (Token α)} {t : List α} :
    accepts (.anyString :: p) t ↔ ∃ u v, t = u ++ v ∧ accepts p v := by
  rw [accepts, List.any_eq_true]
  constructor
  · rintro ⟨v, hv, hp⟩
    obtain ⟨u, rfl⟩ := (List.mem_tails _ _).mp hv
    exact ⟨u, v, rfl, hp⟩
  · rintro ⟨u, v, rfl, hp⟩
    exact ⟨v, (List.mem_tails _ _).mpr (List.suffix_append u v), hp⟩

lemma accepts_anyChar {p : List (Token α)} {t : List α} :
    accepts (.anyChar :: p) t ↔ ∃ a u, t = a :: u ∧ accepts p u := by
  cases t with
  | nil => simp [accepts]
  | cons a u => simp [accepts]

lemma accepts_literal {a : α} {p : List (Token α)} {t : List α} :
    accepts (.literal a :: p) t ↔ ∃ u, t = a :: u ∧ accepts p u := by
  cases t with
  | nil => simp [accepts]
  | cons b u => simp [accepts]

/-- A text is matched by two patterns in a row when it falls into a text for each. -/
theorem accepts_append {p q : List (Token α)} {t : List α} :
    accepts (p ++ q) t ↔ ∃ u v, t = u ++ v ∧ accepts p u ∧ accepts q v := by
  induction p generalizing t with
  | nil => simp [accepts]
  | cons x p ih =>
    rw [List.cons_append]
    cases x with
    | literal a =>
      rw [accepts_literal]
      constructor
      · rintro ⟨t, rfl, h⟩
        obtain ⟨u, v, rfl, hp, hq⟩ := ih.mp h
        exact ⟨a :: u, v, rfl, accepts_literal.mpr ⟨u, rfl, hp⟩, hq⟩
      · rintro ⟨_, v, rfl, h, hq⟩
        obtain ⟨u, rfl, hp⟩ := accepts_literal.mp h
        exact ⟨u ++ v, rfl, ih.mpr ⟨u, v, rfl, hp, hq⟩⟩
    | anyChar =>
      rw [accepts_anyChar]
      constructor
      · rintro ⟨a, t, rfl, h⟩
        obtain ⟨u, v, rfl, hp, hq⟩ := ih.mp h
        exact ⟨a :: u, v, rfl, accepts_anyChar.mpr ⟨a, u, rfl, hp⟩, hq⟩
      · rintro ⟨_, v, rfl, h, hq⟩
        obtain ⟨a, u, rfl, hp⟩ := accepts_anyChar.mp h
        exact ⟨a, u ++ v, rfl, ih.mpr ⟨u, v, rfl, hp, hq⟩⟩
    | anyString =>
      rw [accepts_anyString]
      constructor
      · rintro ⟨w, t, rfl, h⟩
        obtain ⟨u, v, rfl, hp, hq⟩ := ih.mp h
        exact ⟨w ++ u, v, (List.append_assoc _ _ _).symm,
          accepts_anyString.mpr ⟨w, u, rfl, hp⟩, hq⟩
      · rintro ⟨_, v, rfl, h, hq⟩
        obtain ⟨w, u, rfl, hp⟩ := accepts_anyString.mp h
        exact ⟨w, u ++ v, List.append_assoc _ _ _, ih.mpr ⟨u, v, rfl, hp, hq⟩⟩

/-- Characters that stand for themselves match one text. -/
lemma accepts_literals {s t : List α} : accepts (s.map Token.literal) t ↔ t = s := by
  induction s generalizing t with
  | nil => simp [accepts]
  | cons a s ih =>
    rw [List.map_cons, accepts_literal]
    constructor
    · rintro ⟨u, rfl, h⟩
      rw [ih.mp h]
    · rintro rfl
      exact ⟨s, rfl, ih.mpr rfl⟩

lemma accepts_any (t : List α) : accepts [Token.anyString] t :=
  accepts_anyString.mpr ⟨t, [], (List.append_nil t).symm, rfl⟩

/-- Between two wildcards they match the texts that they are in. -/
lemma accepts_contains {s t : List α} :
    accepts (.anyString :: (s.map Token.literal ++ [.anyString])) t ↔ s <:+: t := by
  rw [accepts_anyString]
  constructor
  · rintro ⟨u, v, rfl, h⟩
    obtain ⟨s', w, rfl, hs, -⟩ := accepts_append.mp h
    obtain rfl := accepts_literals.mp hs
    exact ⟨u, w, List.append_assoc _ _ _⟩
  · rintro ⟨u, v, rfl⟩
    exact ⟨u, s ++ v, List.append_assoc _ _ _,
      accepts_append.mpr ⟨s, v, rfl, accepts_literals.mpr rfl, accepts_any v⟩⟩

/-! ## Escaped texts -/

variable {w : Wildcards α}

lemma tokens_escaped (a : α) (p : List α) :
    tokens w (w.escape :: a :: p) = (tokens w p).map (.literal a :: ·) := by
  rw [tokens, if_pos rfl]

lemma tokens_cons {a : α} (ha : a ≠ w.escape) (p : List α) :
    tokens w (a :: p) = (tokens w p).map (token w a :: ·) := by
  cases p with
  | nil => exact if_neg ha
  | cons b p => rw [tokens, if_neg ha]

lemma escape_cons (a : α) (s : List α) : escape w (a :: s) =
    (if a = w.escape ∨ a = w.anyString ∨ a = w.anyChar then [w.escape, a] else [a]) ++
      escape w s := by
  rw [escape, List.flatMap_cons]
  rfl

/-- Escaping adds escape characters only. -/
lemma forall_mem_escape {p : α → Prop} {s : List α} (hescape : p w.escape) (h : ∀ a ∈ s, p a) :
    ∀ a ∈ escape w s, p a := by
  intro a ha
  obtain ⟨b, hb, ha⟩ := List.mem_flatMap.mp ha
  split_ifs at ha
  · rcases List.mem_pair.mp ha with rfl | rfl
    · exact hescape
    · exact h _ hb
  · obtain rfl := List.mem_singleton.mp ha
    exact h _ hb

/-- An escaped text is read as its characters, whatever comes after it. -/
theorem tokens_escape (s p : List α) :
    tokens w (escape w s ++ p) = (tokens w p).map (s.map Token.literal ++ ·) := by
  induction s with
  | nil =>
    cases h : tokens w p <;> simp [escape, h]
  | cons a s ih =>
    have hstep : tokens w (escape w (a :: s) ++ p) =
        (tokens w (escape w s ++ p)).map (.literal a :: ·) := by
      rw [escape_cons]
      split_ifs with hspecial
      · exact tokens_escaped a _
      · obtain ⟨hescape, hstring, hchar⟩ : a ≠ w.escape ∧ a ≠ w.anyString ∧ a ≠ w.anyChar := by
          simpa [not_or] using hspecial
        have htoken : token w a = .literal a := by
          rw [token, if_neg hstring, if_neg hchar]
        rw [List.singleton_append, List.cons_append, tokens_cons hescape, htoken]
    rw [hstep, ih, Option.map_map]
    rfl

/-- **A search for an escaped text is literal**: between two wildcards it finds the texts that the
text is in, and it is never an error. -/
theorem like_contains (s t : List α) :
    like w t (w.anyString :: (escape w s ++ [w.anyString])) = some (decide (s <:+: t)) := by
  have hany : token w w.anyString = .anyString := if_pos rfl
  have htokens : tokens w (w.anyString :: (escape w s ++ [w.anyString])) =
      some (.anyString :: (s.map Token.literal ++ [.anyString])) := by
    rw [tokens_cons w.anyString_ne_escape, tokens_escape, hany, tokens,
      if_neg w.anyString_ne_escape, hany]
    rfl
  rw [like, htokens, Option.map_some, Option.some_inj, Bool.eq_iff_iff, decide_eq_true_iff]
  exact accepts_contains

end SqlLike
