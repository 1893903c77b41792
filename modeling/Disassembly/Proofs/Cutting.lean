import Disassembly.Text.Blank
import Disassembly.Text.Lines
import Mathlib.Data.List.DropRight

/-!
# Cutting texts

Trimming leaves nothing to trim. A text that is cut at a separator or at line feeds is put together
again by them, and a text can be cut behind a class of characters in one way only.
-/

namespace Disassembly.Text

/-! ### Trimmed texts -/

/-- A text that neither starts nor ends with a blank. -/
structure IsTrimmed (text : List Char) : Prop where
  first : ∀ c, text.head? = some c → isBlank c = false
  last : ∀ c, text.getLast? = some c → isBlank c = false

theorem trimStart_eq_self {text : List Char}
    (first : ∀ c, text.head? = some c → isBlank c = false) : trimStart text = text := by
  cases text with
  | nil => rfl
  | cons c rest => exact List.dropWhile_cons_of_neg (by simp [first c rfl])

theorem trimEnd_eq_self {text : List Char}
    (last : ∀ c, text.getLast? = some c → isBlank c = false) : trimEnd text = text := by
  have reversed : trimStart text.reverse = text.reverse := by
    apply trimStart_eq_self
    intro c ends
    rw [List.head?_reverse] at ends
    exact last c ends
  unfold trimStart at reversed
  rw [trimEnd, reversed, List.reverse_reverse]

theorem IsTrimmed.trim_eq {text : List Char} (trimmed : IsTrimmed text) : trim text = text := by
  rw [trim, trimStart_eq_self trimmed.first, trimEnd_eq_self trimmed.last]

theorem head?_trimStart {text : List Char} {c : Char} (starts : (trimStart text).head? = some c) :
    isBlank c = false := by
  have remaining := List.head?_dropWhile_not isBlank text
  unfold trimStart at starts
  rw [starts] at remaining
  exact remaining

theorem getLast?_trimEnd {text : List Char} {c : Char} (ends : (trimEnd text).getLast? = some c) :
    isBlank c = false := by
  rw [trimEnd, List.getLast?_reverse] at ends
  exact head?_trimStart ends

theorem trimEnd_isPrefix (text : List Char) : trimEnd text <+: text :=
  List.rdropWhile_prefix isBlank text

theorem isTrimmed_trim (text : List Char) : IsTrimmed (trim text) where
  first c starts := by
    -- What is left of the trimmed start is a part of it, and starts with the same character.
    obtain ⟨tail, split⟩ := trimEnd_isPrefix (trimStart text)
    apply head?_trimStart
    rw [← split, List.head?_append, ← trim, starts]
    rfl
  last _ := getLast?_trimEnd

theorem mem_of_mem_trim {text : List Char} {c : Char} (member : c ∈ trim text) : c ∈ text :=
  (List.dropWhile_suffix isBlank).mem ((trimEnd_isPrefix _).mem member)

/-- A blank at the end is trimmed away, whatever stands in front of it. -/
theorem trim_append_blank {c : Char} (blank : isBlank c = true) (text : List Char) :
    trim (text ++ [c]) = trim text := by
  have last (front : List Char) : trimEnd (front ++ [c]) = trimEnd front :=
    List.rdropWhile_concat_pos isBlank front c blank
  simp only [trim, trimStart, List.dropWhile_append]
  split
  · next none => simp [List.isEmpty_iff.mp none, blank]
  · exact last _

/-! ### Words -/

section Words

variable {p : Char → Bool} {word rest : List Char} (inside : ∀ c ∈ word, p c = true)
  (ends : ∀ c, rest.head? = some c → p c = false)

include inside ends

theorem takeWhile_word : (word ++ rest).takeWhile p = word := by
  rw [List.takeWhile_append_of_pos inside]
  cases rest with
  | nil => rw [List.takeWhile_nil, List.append_nil]
  | cons c rest => rw [List.takeWhile_cons_of_neg (by simp [ends c rfl]), List.append_nil]

theorem dropWhile_word : (word ++ rest).dropWhile p = rest := by
  rw [List.dropWhile_append_of_pos inside]
  cases rest with
  | nil => rfl
  | cons c rest => exact List.dropWhile_cons_of_neg (by simp [ends c rfl])

end Words

/-- Two ways to cut a text behind its longest start of a class are the same. -/
theorem eq_of_append_eq {p : Char → Bool} {word other rest behind : List Char}
    (inside : ∀ c ∈ word, p c = true) (ends : ∀ c, rest.head? = some c → p c = false)
    (otherInside : ∀ c ∈ other, p c = true) (otherEnds : ∀ c, behind.head? = some c → p c = false)
    (same : word ++ rest = other ++ behind) : word = other ∧ rest = behind := by
  constructor
  · rw [← takeWhile_word inside ends, same, takeWhile_word otherInside otherEnds]
  · rw [← dropWhile_word inside ends, same, dropWhile_word otherInside otherEnds]

/-! ### Pieces -/

theorem split_cons (separator c : Char) (text : List Char) :
    split separator (c :: text) = splitStep separator c (split separator text) := rfl

theorem split_ne_nil (separator : Char) (text : List Char) : split separator text ≠ [] := by
  cases text with
  | nil => simp [split]
  | cons c text =>
    rw [split_cons]
    cases split separator text <;> simp only [splitStep] <;> split <;> simp

theorem split_append_cons {separator : Char} {piece : List Char} (inside : separator ∉ piece)
    (rest : List Char) :
    split separator (piece ++ separator :: rest) = piece :: split separator rest := by
  induction piece with
  | nil =>
    rw [List.nil_append, split_cons]
    cases pieces : split separator rest with
    | nil => exact absurd pieces (split_ne_nil separator rest)
    | cons first others => simp [splitStep]
  | cons c piece ih =>
    have other : c ≠ separator := fun same => inside (by simp [same])
    rw [List.cons_append, split_cons, ih fun member => inside (List.mem_cons_of_mem _ member)]
    simp [splitStep, other]

/-- A separator between two texts cuts them apart. -/
theorem split_append (separator : Char) (first second : List Char) :
    split separator (first ++ separator :: second) =
      split separator first ++ split separator second := by
  induction first with
  | nil => exact split_append_cons List.not_mem_nil second
  | cons c first ih =>
    rw [List.cons_append, split_cons, split_cons, ih]
    -- The character goes to the first piece, and there is one in `first` already.
    cases pieces : split separator first with
    | nil => exact absurd pieces (split_ne_nil separator first)
    | cons piece pieces =>
      simp only [List.cons_append, splitStep]
      split <;> rfl

theorem not_mem_of_mem_split {separator : Char} {text piece : List Char}
    (member : piece ∈ split separator text) : separator ∉ piece := by
  induction text generalizing piece with
  | nil =>
    have empty : piece = [] := by simpa [split] using member
    simp [empty]
  | cons c text ih =>
    rw [split_cons] at member
    cases pieces : split separator text with
    | nil => exact absurd pieces (split_ne_nil separator text)
    | cons first others =>
      rw [pieces] at member ih
      by_cases same : c = separator
      · -- A new first piece is empty, the others are those of the rest.
        simp only [splitStep, same, if_true, List.mem_cons] at member
        rcases member with rfl | member
        · simp
        · exact ih (by simpa using member)
      · simp only [splitStep, same, if_false, List.mem_cons] at member
        rcases member with rfl | member
        · have before := ih List.mem_cons_self
          simp [before, Ne.symm same]
        · exact ih (List.mem_cons_of_mem _ member)

theorem intercalate_split (separator : Char) (text : List Char) :
    [separator].intercalate (split separator text) = text := by
  induction text with
  | nil => rfl
  | cons c text ih =>
    rw [split_cons]
    cases pieces : split separator text with
    | nil => exact absurd pieces (split_ne_nil separator text)
    | cons first others =>
      rw [pieces] at ih
      by_cases same : c = separator
      · rw [splitStep, if_pos same, List.intercalate_cons_cons, ih, same]
        rfl
      · -- The character goes to the front of the first piece, whether others follow or not.
        rw [splitStep, if_neg same, ← ih]
        cases others with
        | nil => simp
        | cons second others => simp [List.intercalate_cons_cons]

theorem split_of_not_mem {separator : Char} {text : List Char} (clear : separator ∉ text) :
    split separator text = [text] := by
  induction text with
  | nil => rfl
  | cons c text ih =>
    have other : c ≠ separator := fun same => clear (by simp [same])
    rw [split_cons, ih fun member => clear (List.mem_cons_of_mem _ member), splitStep, if_neg other]

theorem split_intercalate {separator : Char} {parts : List (List Char)} (nonempty : parts ≠ [])
    (clear : ∀ part ∈ parts, separator ∉ part) :
    split separator ([separator].intercalate parts) = parts := by
  induction parts with
  | nil => exact absurd rfl nonempty
  | cons part rest ih =>
    have inside := clear part List.mem_cons_self
    cases rest with
    | nil => rw [List.intercalate_singleton, split_of_not_mem inside]
    | cons next rest =>
      rw [List.intercalate_cons_cons, List.append_assoc, List.singleton_append,
        split_append_cons inside,
        ih (by simp) fun other member => clear other (List.mem_cons_of_mem _ member)]

/-! ### Lines -/

theorem lines_append_cons {line : List Char} (inside : '\n' ∉ line) (rest : List Char) :
    lines (line ++ '\n' :: rest) = dropReturn line :: lines rest := by
  simp only [lines, split_append_cons inside]
  cases pieces : split '\n' rest with
  | nil => exact absurd pieces (split_ne_nil '\n' rest)
  | cons first others =>
    rw [List.dropLast_cons_cons, List.map_cons, List.getLast?_cons_cons, List.cons_append]

theorem not_mem_of_mem_lines {text line : List Char} (member : line ∈ lines text) :
    '\n' ∉ line := by
  simp only [lines, List.mem_append, List.mem_map, List.mem_filter] at member
  rcases member with ⟨piece, among, rfl⟩ | ⟨last, -⟩
  · have clear := not_mem_of_mem_split ((List.dropLast_subset _) among)
    unfold dropReturn
    split
    · exact fun found => clear (List.dropLast_subset _ found)
    · exact clear
  · rw [Option.mem_toList] at last
    exact not_mem_of_mem_split (List.mem_of_getLast? last)

/-- Lines, each with a line feed behind it. -/
def unlines (lines : List (List Char)) : List Char :=
  lines.flatMap (· ++ ['\n'])

theorem lines_unlines {texts : List (List Char)}
    (clear : ∀ line ∈ texts, '\n' ∉ line ∧ line.getLast? ≠ some '\r') :
    lines (unlines texts) = texts := by
  induction texts with
  | nil => rfl
  | cons line rest ih =>
    obtain ⟨inside, ends⟩ := clear line List.mem_cons_self
    have later := ih fun other member => clear other (List.mem_cons_of_mem _ member)
    unfold unlines at later ⊢
    rw [List.flatMap_cons, List.append_assoc, List.singleton_append, lines_append_cons inside, later,
      dropReturn, if_neg ends]

end Disassembly.Text
