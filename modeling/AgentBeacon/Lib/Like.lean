import Mathlib.Data.List.Infix

/-!
# `Lib.Like` — the `LIKE` operator

A pattern of `LIKE` with an escape: `%` matches any text, `_` any character, and a character behind the escape
only itself. How letters are compared is left to the database; all that is used of it is that a letter is the
same as itself.
-/

namespace Like

/-- How a database compares two characters. -/
structure Collation where
  same : Char → Char → Bool
  refl : ∀ c, same c c = true

/-- The comparison of SQLite: letters of ASCII match in either case. -/
def Collation.asciiFolding : Collation where
  same c d := c.toLower = d.toLower
  refl _ := by simp

/-- The comparison of PostgreSQL. -/
def Collation.exact : Collation where
  same c d := c = d
  refl _ := by simp

/-- Whether some end of the text is accepted. -/
def anySuffix (p : List Char → Bool) : List Char → Bool
  | [] => p []
  | c :: text => p (c :: text) || anySuffix p text

variable (collation : Collation)

/-- `text LIKE pattern ESCAPE '\\'`. -/
def like : List Char → List Char → Bool
  | [], text => text.isEmpty
  | c :: pattern, text =>
      if c = '%' then anySuffix (like pattern) text
      else if c = '\\' then
        match pattern, text with
        | d :: pattern, t :: text => collation.same d t && like pattern text
        | _, _ => false
      else
        match text with
        | t :: text => (c = '_' || collation.same c t) && like pattern text
        | [] => false

/-- A character that stands for itself. -/
def escapeChar (c : Char) : List Char := if c = '\\' || c = '%' || c = '_' then ['\\', c] else [c]

/-- A text that stands for itself. -/
def escape (text : List Char) : List Char := text.flatMap escapeChar

theorem anySuffix_append {p : List Char → Bool} {text : List Char} (u : List Char) (h : p text = true) :
    anySuffix p (u ++ text) = true := by
  induction u with
  | nil => cases text <;> simp [anySuffix, h]
  | cons c u ih => simp [anySuffix, ih]

variable {collation}

theorem like_any (pattern text : List Char) :
    like collation ('%' :: pattern) text = anySuffix (like collation pattern) text := by
  rw [like.eq_def]
  simp

/-- An escaped character matches itself. -/
theorem like_escapeChar {c : Char} {pattern text : List Char} (h : like collation pattern text = true) :
    like collation (escapeChar c ++ pattern) (c :: text) = true := by
  have hsame := collation.refl c
  unfold escapeChar
  split
  · simp [like, hsame, h]
  · next hplain =>
      have hother : c ≠ '%' ∧ c ≠ '\\' := by
        constructor
        · rintro rfl
          exact hplain rfl
        · rintro rfl
          exact hplain rfl
      rw [List.singleton_append, like.eq_def]
      simp [hother, hsame, h]

/-- By induction on the text: an escaped text matches itself. -/
theorem like_escape {text pattern rest : List Char} (h : like collation pattern rest = true) :
    like collation (escape text ++ pattern) (text ++ rest) = true := by
  induction text with
  | nil => exact h
  | cons c text ih =>
      rw [escape, List.flatMap_cons, List.append_assoc, List.cons_append]
      exact like_escapeChar ih

/-- **A text is found in every text that contains it.** -/
theorem like_within {text whole : List Char} (h : text <:+: whole) :
    like collation ('%' :: (escape text ++ ['%'])) whole = true := by
  obtain ⟨u, v, rfl⟩ := h
  have hend : like collation ['%'] v = true := by
    have hsuffix := anySuffix_append (p := like collation []) v (by rfl : like collation [] [] = true)
    rw [List.append_nil] at hsuffix
    rw [like_any]
    exact hsuffix
  rw [List.append_assoc, like_any]
  exact anySuffix_append u (like_escape hend)

end Like
