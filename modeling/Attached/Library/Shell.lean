import Mathlib

/-!
This module contains the words of a POSIX shell command: how quotes and blanks cut a text into words,
and a quotation that keeps any text whole.
-/

namespace Shell

inductive Quoting where
  | none
  | single
  | double
  deriving DecidableEq

/--
Characters that mean something to the shell unless they are quoted: operators, expansions, patterns,
comments and assignments.
-/
def isSpecial (c : Char) : Bool :=
  ['\n', '|', '&', ';', '<', '>', '(', ')', '$', '\x60', '*', '?', '[', ']', '#', '~', '=', '%', '!',
    '{', '}', '^'].contains c

/--
The words of a command in which nothing is left to the shell but to remove the quotes. The word that
has been started, if any, is `word`.
-/
def split (quoting : Quoting) (word : Option (List Char)) (input : List Char)
    : Option (List (List Char)) :=
  match quoting, input with
  | .none, [] => some word.toList
  | .none, '\'' :: input => split .single (some (word.getD [])) input
  | .none, '"' :: input => split .double (some (word.getD [])) input
  | .none, '\\' :: '\n' :: input => split .none word input
  | .none, '\\' :: c :: input => split .none (some (word.getD [] ++ [c])) input
  | .none, ['\\'] => none
  | .none, c :: input =>
    if c = ' ' ∨ c = '\t' then
      (split .none none input).map (word.toList ++ ·)
    else if isSpecial c then
      none
    else
      split .none (some (word.getD [] ++ [c])) input
  | .single, '\'' :: input => split .none word input
  | .single, c :: input => split .single (some (word.getD [] ++ [c])) input
  | .single, [] => none
  | .double, '"' :: input => split .none word input
  | .double, '\\' :: '\n' :: input => split .double word input
  | .double, '\\' :: c :: input =>
    if c = '$' ∨ c = '\x60' ∨ c = '"' ∨ c = '\\' then
      split .double (some (word.getD [] ++ [c])) input
    else
      split .double (some (word.getD [] ++ ['\\', c])) input
  | .double, c :: input =>
    if c = '$' ∨ c = '\x60' then
      none
    else
      split .double (some (word.getD [] ++ [c])) input
  | .double, [] => none

def words (command : List Char) : Option (List (List Char)) :=
  split .none none command

def quoteChar (c : Char) : List Char :=
  if c = '\'' then ['\'', '\\', '\'', '\''] else [c]

def quote (text : List Char) : List Char :=
  '\'' :: (text.flatMap quoteChar ++ ['\''])

theorem mem_quote {c : Char} {text : List Char} (h : c ∈ quote text)
    : c ∈ text ∨ c = '\'' ∨ c = '\\' := by
  simp only [quote, List.mem_cons, List.mem_append, List.mem_flatMap, List.not_mem_nil, or_false] at h
  rcases h with rfl | ⟨d, hd, hc⟩ | rfl
  . exact .inr (.inl rfl)
  . unfold quoteChar at hc
    split at hc
    . simp only [List.mem_cons, List.not_mem_nil, or_false] at hc
      rcases hc with rfl | rfl | rfl | rfl
      . exact .inr (.inl rfl)
      . exact .inr (.inr rfl)
      . exact .inr (.inl rfl)
      . exact .inr (.inl rfl)
    . rw [List.mem_singleton] at hc
      subst hc
      exact .inl hd
  . exact .inr (.inl rfl)

theorem split_single_cons {c : Char} (h : c ≠ '\'') (word input : List Char)
    : split .single (some word) (c :: input) = split .single (some (word ++ [c])) input := by
  rw [split]
  . rfl
  . exact h

theorem split_quoteChar (c : Char) (word input : List Char)
    : split .single (some word) (quoteChar c ++ input)
        =
      split .single (some (word ++ [c])) input := by
  unfold quoteChar
  split
  . next hquote =>
    subst hquote
    simp [split]
  . next hplain => exact split_single_cons hplain word input

theorem split_flatMap_quoteChar (text word input : List Char)
    : split .single (some word) (text.flatMap quoteChar ++ input)
        =
      split .single (some (word ++ text)) input := by
  induction text generalizing word with
  | nil => simp
  | cons c text ih =>
    rw [List.flatMap_cons, List.append_assoc, split_quoteChar, ih, List.append_assoc]
    rfl

theorem split_quote (text : List Char) (word : Option (List Char)) (input : List Char)
    : split .none word (quote text ++ input)
        =
      split .none (some (word.getD [] ++ text)) input := by
  have hquote : quote text ++ input = '\'' :: (text.flatMap quoteChar ++ ('\'' :: input)) := by
    simp [quote]
  rw [hquote, split, split_flatMap_quoteChar, split]

def isPlain (c : Char) : Bool :=
  c ≠ '\'' ∧ c ≠ '"' ∧ c ≠ '\\' ∧ c ≠ ' ' ∧ c ≠ '\t' ∧ !isSpecial c

theorem split_plain {text : List Char} (h : text.all isPlain = true) (word : Option (List Char))
    (input : List Char) (hne : text ≠ [])
    : split .none word (text ++ input) = split .none (some (word.getD [] ++ text)) input := by
  have hcons : ∀ (c : Char) (word : Option (List Char)) (input : List Char), isPlain c = true →
      split .none word (c :: input) = split .none (some (word.getD [] ++ [c])) input := by
    intro c word input hc
    simp only [isPlain, decide_eq_true_eq, Bool.not_eq_true'] at hc
    rcases hc with ⟨hsingle, hdouble, hbackslash, hspace, htab, hspecial⟩
    rw [split]
    . rw [if_neg (by simp [hspace, htab]), if_neg (by simp [hspecial])]
    . exact hsingle
    . exact hdouble
    . exact fun _ h => absurd h hbackslash
    . exact fun _ _ h => absurd h hbackslash
    . exact fun h => absurd h hbackslash
  induction text generalizing word with
  | nil => exact absurd rfl hne
  | cons c text ih =>
    simp only [List.all_cons, Bool.and_eq_true] at h
    rw [List.cons_append, hcons c word _ h.1]
    cases text with
    | nil => rfl
    | cons d text =>
      rw [ih h.2 _ (by simp)]
      simp

theorem split_space (word input : List Char)
    : split .none (some word) (' ' :: input) = (split .none none input).map (word :: ·) := by
  simp [split]

theorem words_quote {first second third : List Char} (h : second.all isPlain = true)
    (hne : second ≠ [])
    : words (quote first ++ ' ' :: (second ++ ' ' :: quote third))
        =
      some [first, second, third] := by
  have hthird := split_quote third none []
  rw [List.append_nil] at hthird
  rw [words, split_quote, split_space, split_plain h _ _ hne, split_space, hthird]
  rfl

end Shell
