/-!
# Quoted text

A string literal is written between apostrophes. Inside it, backslash, apostrophe, tab and the two
line break characters are written as a backslash and one letter or sign.
-/

set_option autoImplicit false

namespace IndentLisp.Quoted

/-- The character that stands for another one behind a backslash, if that one is escaped. -/
def escape? : Char → Option Char
  | '\\' => some '\\'
  | '\r' => some 'r'
  | '\n' => some 'n'
  | '\t' => some 't'
  | '\'' => some '\''
  | _ => none

/-- The character that a backslash and the given character denote, if they are an escape. -/
def unescape? : Char → Option Char
  | 'r' => some '\r'
  | 'n' => some '\n'
  | 't' => some '\t'
  | '\'' => some '\''
  | '\\' => some '\\'
  | _ => none

/-- A character as it is written inside a literal. -/
def encodeChar (c : Char) : List Char :=
  match escape? c with
  | some letter => ['\\', letter]
  | none => [c]

/-- A text as it is written inside a literal. -/
def encode (text : List Char) : List Char := text.flatMap encodeChar

/-- The literal of a text, with its delimiters. -/
def quote (text : String) : List Char := '\'' :: encode text.toList ++ ['\'']

/-- Escaping is undone by `unescape?`. -/
theorem unescape?_of_escape? {c letter : Char} (escaped : escape? c = some letter) :
    unescape? letter = some c := by
  unfold escape? at escaped
  split at escaped <;> simp_all [unescape?] <;> (subst escaped; rfl)

/-! ## Escaping in passes -/

/-- The characters that are escaped, each with the letter or sign that stands for it behind a
backslash. The backslash comes first, because escaping the others writes more of it. -/
def escapes : List (Char × Char) :=
  [('\\', '\\'), ('\r', 'r'), ('\n', 'n'), ('\t', 't'), ('\'', '\'')]

/-- A text in which one of these characters is escaped wherever it stands. -/
def escapeAll (text : List Char) (escape : Char × Char) : List Char :=
  text.flatMap fun c => if c = escape.1 then ['\\', escape.2] else [c]

/-- Passes over a whole text change each of its characters by itself. -/
theorem foldl_escapeAll (passes : List (Char × Char)) (text : List Char) :
    passes.foldl escapeAll text = text.flatMap fun c => passes.foldl escapeAll [c] := by
  induction passes generalizing text with
  | nil => exact (List.flatMap_singleton' text).symm
  | cons pass passes ih =>
      simp only [List.foldl_cons]
      rw [ih, escapeAll, List.flatMap_assoc]
      congr 1
      funext c
      rw [escapeAll, List.flatMap_singleton]
      exact (ih _).symm

theorem foldl_escapeAll_of_ne {c : Char} {passes : List (Char × Char)}
    (other : ∀ pass ∈ passes, c ≠ pass.1) : passes.foldl escapeAll [c] = [c] := by
  induction passes with
  | nil => rfl
  | cons pass passes ih =>
      obtain ⟨first, others⟩ := List.forall_mem_cons.mp other
      rw [List.foldl_cons, escapeAll, List.flatMap_singleton, if_neg first]
      exact ih others

/-- No pass escapes again what an earlier one has written, so a character comes out of all of them
as it is encoded. -/
theorem foldl_escapes_singleton (c : Char) : escapes.foldl escapeAll [c] = encodeChar c := by
  by_cases other : ∀ escape ∈ escapes, c ≠ escape.1
  · have plain : escape? c = none := by
      simp only [escapes, List.forall_mem_cons] at other
      unfold escape?
      split <;> simp_all
    rw [foldl_escapeAll_of_ne other, encodeChar, plain]
  · have listed : c = '\\' ∨ c = '\r' ∨ c = '\n' ∨ c = '\t' ∨ c = '\'' := by
      simp only [escapes, List.forall_mem_cons] at other
      grind
    rcases listed with rfl | rfl | rfl | rfl | rfl <;> rfl

theorem encode_eq_foldl_escapes (text : List Char) :
    encode text = escapes.foldl escapeAll text := by
  rw [foldl_escapeAll, encode]
  congr 1
  funext c
  exact (foldl_escapes_singleton c).symm

end IndentLisp.Quoted
