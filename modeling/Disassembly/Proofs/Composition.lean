import Disassembly.Proofs.SlotAdjacency
import Disassembly.Proofs.RoundTrip

/-!
# Reading a listing line by line

A listing is read one line at a time, and a line is read alike whatever blanks end it. So it does not
matter whether a carriage return belongs to the ending of a line or to the line, nor whether the text
goes on behind its last line feed: reading a text is reading its pieces between line feeds
(`parse_eq_readLines_split`). A text that is put together from two is then read as the one and after
that as the other, and the first line that cannot be decoded decides how the whole fails.
-/

namespace Disassembly.Listing

open Text Memory

/-- A line of instruction form in executable memory that is not an instruction, for this reason. -/
def Refuses (space : AddressSpace) (line : List Char) (fault : Fault) : Prop :=
  ∃ parsed, Line.parse? line = some parsed ∧
    space.isExecutable (space.canonical parsed.address) = true ∧
    Instruction.decode (space.canonical parsed.address) parsed.mnemonic parsed.operands =
      .error fault

/-- The same lines with a carriage return in front of every line feed. -/
def withReturns (text : List Char) : List Char :=
  text.flatMap fun c => if c = '\n' then ['\r', '\n'] else [c]

/-! ### Blanks at the end of a line -/

theorem Line.parse?_eq_some_iff {s : List Char} {line : Line} :
    Line.parse? s = some line ↔ ∃ form : LineForm, form.text = s ∧ form.Denotes line := by
  constructor
  · exact exists_form_of_parse?
  · rintro ⟨form, rfl, denotes⟩
    exact LineForm.parse?_text denotes

namespace LineForm

/-- A form with other operands. -/
def withRest (form : LineForm) (rest : List Char)
    (blank : ∀ c, rest.head? = some c → isBlank c = true) : LineForm :=
  { form with rest, rest_blank := blank }

/-- Operands with the same trimmed text say the same. -/
theorem Denotes.withRest {form : LineForm} {line : Line} (denotes : form.Denotes line)
    {rest : List Char} (blank : ∀ c, rest.head? = some c → isBlank c = true)
    (same : trim rest = trim form.rest) : (form.withRest rest blank).Denotes line where
  address := denotes.address
  bytes := denotes.bytes
  mnemonic := denotes.mnemonic
  operands := by rw [denotes.operands, ← same]; rfl

theorem text_withRest (form : LineForm) {rest tail : List Char}
    (blank : ∀ c, rest.head? = some c → isBlank c = true) (split : form.rest ++ tail = rest) :
    (form.withRest rest blank).text = form.text ++ tail := by
  subst split
  simp [withRest, text, contents, code, name]

/-- A line of this form that ends with a blank has it among the operands. -/
theorem rest_ne_nil_of_ends (form : LineForm) {line : List Char} {c : Char}
    (ends : form.text = line ++ [c]) (blank : isBlank c = true) : form.rest ≠ [] := by
  intro none
  -- Without operands the line ends with the mnemonic, which holds no blank.
  have last : form.name.getLast? = some c := by
    have same : form.text.getLast? = form.name.getLast? := by
      simp [text, contents, code, none, name, List.getLast?_append, List.getLast?_cons]
    rw [← same, ends, List.getLast?_concat]
  have solid := form.isBlank_of_mem_name (List.mem_of_getLast? last)
  simp [blank] at solid

end LineForm

/-- A blank behind a line changes nothing, neither for a line that is accepted nor for one that is
not. -/
theorem Line.parse?_append_blank {c : Char} (blank : isBlank c = true) (line : List Char) :
    Line.parse? (line ++ [c]) = Line.parse? line := by
  apply Option.ext
  intro parsed
  simp only [Line.parse?_eq_some_iff]
  constructor
  · rintro ⟨form, ends, denotes⟩
    -- The blank is the last character of the operands and can be taken off there.
    obtain ⟨rest, last, split⟩ := (List.eq_nil_or_concat' form.rest).resolve_left
      (form.rest_ne_nil_of_ends ends blank)
    have starts (d : Char) (first : rest.head? = some d) : isBlank d = true :=
      form.rest_blank d (by rw [split, List.head?_append, first]; rfl)
    have text : form.text = (form.withRest rest starts).text ++ [last] :=
      (form.withRest rest starts).text_withRest form.rest_blank split.symm
    obtain ⟨shorter, same⟩ := List.append_inj' (text.symm.trans ends) rfl
    cases same
    refine ⟨form.withRest rest starts, shorter, denotes.withRest starts ?_⟩
    rw [split, trim_append_blank blank]
  · rintro ⟨form, rfl, denotes⟩
    have starts (d : Char) (first : (form.rest ++ [c]).head? = some d) : isBlank d = true := by
      cases rest : form.rest with
      | nil =>
        rw [rest] at first
        cases first
        exact blank
      | cons e others =>
        rw [rest] at first
        exact form.rest_blank d (by rw [rest]; exact first)
    exact ⟨form.withRest _ starts, form.text_withRest starts rfl,
      denotes.withRest starts (trim_append_blank blank _)⟩

/-! ### Lines one after the other -/

theorem instructionOfLine?_append_blank (space : AddressSpace) {c : Char} (blank : isBlank c = true)
    (line : List Char) :
    instructionOfLine? space (line ++ [c]) = instructionOfLine? space line := by
  rw [instructionOfLine?, Line.parse?_append_blank blank, instructionOfLine?]

theorem instructionOfLine?_dropReturn (space : AddressSpace) (line : List Char) :
    instructionOfLine? space (dropReturn line) = instructionOfLine? space line := by
  unfold dropReturn
  split
  · next ends =>
    -- The line is what is left of it and the carriage return, which is a blank.
    obtain ⟨rest, split⟩ := List.getLast?_eq_some_iff.mp ends
    rw [split, List.dropLast_concat, instructionOfLine?_append_blank space (by decide)]
  · rfl

/-- Reads lines in order. -/
def readLines (space : AddressSpace) (lines : List (List Char)) : Except Fault (List Instruction) := do
  return (← lines.mapM (instructionOfLine? space)).filterMap id

theorem parse_eq_readLines (space : AddressSpace) (text : String) :
    parse space text = readLines space (lines text.toList) := rfl

theorem readLines_cons (space : AddressSpace) (line : List Char) (rest : List (List Char)) :
    readLines space (line :: rest) = do
      let here ← instructionOfLine? space line
      let others ← readLines space rest
      return here.toList ++ others := by
  simp only [readLines, List.mapM_cons]
  cases instructionOfLine? space line with
  | error fault => rfl
  | ok here =>
    cases rest.mapM (instructionOfLine? space) with
    | error fault => rfl
    | ok others => cases here <;> rfl

theorem readLines_append (space : AddressSpace) (first second : List (List Char)) :
    readLines space (first ++ second) = do
      let before ← readLines space first
      let behind ← readLines space second
      return before ++ behind := by
  induction first with
  | nil =>
    rw [List.nil_append]
    change _ = (readLines space second >>= fun behind => pure behind)
    rw [bind_pure]
  | cons line rest ih =>
    rw [List.cons_append, readLines_cons, readLines_cons, ih]
    -- Whatever fails first fails both sides with the same fault.
    cases instructionOfLine? space line with
    | error fault => rfl
    | ok here =>
      cases readLines space rest with
      | error fault => rfl
      | ok others =>
        cases readLines space second with
        | error fault => rfl
        | ok behind =>
          change Except.ok _ = Except.ok _
          rw [List.append_assoc]

/-- Lines that are read alike one by one are read alike together. -/
theorem readLines_congr {space : AddressSpace} {lines others : List (List Char)}
    (alike : List.Forall₂
      (fun line other => instructionOfLine? space line = instructionOfLine? space other)
      lines others) : readLines space lines = readLines space others := by
  induction alike with
  | nil => rfl
  | cons here _ ih => rw [readLines_cons, readLines_cons, here, ih]

/-- It is enough to cut a text at its line feeds. -/
theorem parse_eq_readLines_split (space : AddressSpace) (text : String) :
    parse space text = readLines space (split '\n' text.toList) := by
  rw [parse_eq_readLines, lines]
  obtain ⟨front, last, pieces⟩ := (List.eq_nil_or_concat' (split '\n' text.toList)).resolve_left
    (split_ne_nil _ _)
  rw [pieces, List.dropLast_concat, List.getLast?_concat, readLines_append, readLines_append]
  have ended : readLines space (front.map dropReturn) = readLines space front := by
    apply readLines_congr
    rw [List.forall₂_map_left_iff]
    exact List.forall₂_same.mpr fun line _ => instructionOfLine?_dropReturn space line
  have unended : readLines space ((some last).toList.filter (!·.isEmpty)) = readLines space [last] := by
    -- An empty piece behind the last line feed is not a line, but says nothing as one either.
    cases last with
    | nil => rfl
    | cons c rest => rfl
  rw [ended, unended]

/-! ### Line endings -/

/-- A carriage return in front of each line feed ends up at the end of the pieces. -/
theorem split_withReturns (text : List Char) :
    List.Forall₂ (fun piece other => other = piece ∨ other = piece ++ ['\r']) (split '\n' text)
      (split '\n' (withReturns text)) := by
  induction text with
  | nil => exact .cons (.inl rfl) .nil
  | cons c text ih =>
    by_cases feed : c = '\n'
    · -- A new first piece, empty in one text and a carriage return in the other.
      have marked : withReturns (c :: text) = ['\r'] ++ '\n' :: withReturns text := by
        simp [withReturns, feed]
      have cut : split '\n' (c :: text) = [] :: split '\n' text := by
        rw [feed]
        exact split_append_cons List.not_mem_nil text
      rw [marked, cut, split_append_cons (by decide)]
      exact .cons (.inr rfl) ih
    · -- The character goes to the front of the first piece in both.
      have marked : withReturns (c :: text) = c :: withReturns text := by
        simp [withReturns, feed]
      rw [marked, split_cons, split_cons]
      generalize split '\n' text = pieces at ih ⊢
      generalize split '\n' (withReturns text) = others at ih ⊢
      cases ih with
      | nil => simp [splitStep, feed]
      | cons first rest =>
        simp only [splitStep, if_neg feed]
        refine .cons (first.imp ?_ ?_) rest
        · rintro rfl
          rfl
        · rintro rfl
          rfl

theorem parse_withReturns (space : AddressSpace) (text : String) :
    parse space (String.ofList (withReturns text.toList)) = parse space text := by
  rw [parse_eq_readLines_split, parse_eq_readLines_split, String.toList_ofList]
  symm
  apply readLines_congr
  apply (split_withReturns text.toList).imp
  rintro piece other (rfl | rfl)
  · rfl
  · exact (instructionOfLine?_append_blank space (by decide) piece).symm

/-! ### The line that fails -/

theorem instructionOfLine?_eq_error_iff {space : AddressSpace} {line : List Char} {fault : Fault} :
    instructionOfLine? space line = .error fault ↔ Refuses space line fault := by
  unfold instructionOfLine? Refuses
  cases Line.parse? line with
  | none => simp
  | some parsed =>
    simp only [Option.some.injEq, exists_eq_left']
    split
    · next executable =>
      rw [and_iff_right executable]
      cases Instruction.decode (space.canonical parsed.address) parsed.mnemonic parsed.operands <;>
        simp [Except.map]
    · next elsewhere => simp [elsewhere]

theorem exists_ok_iff_not_refuses {space : AddressSpace} {line : List Char} :
    (∃ found, instructionOfLine? space line = .ok found) ↔ ∀ fault, ¬Refuses space line fault := by
  simp only [← instructionOfLine?_eq_error_iff]
  cases instructionOfLine? space line <;> simp

theorem parse_eq_error_iff {space : AddressSpace} {text : String} {fault : Fault} :
    parse space text = .error fault ↔
      ∃ before line after, lines text.toList = before ++ line :: after ∧
        Refuses space line fault ∧ ∀ other ∈ before, ∀ reason, ¬Refuses space other reason := by
  have stops : parse space text = .error fault ↔
      (lines text.toList).mapM (instructionOfLine? space) = .error fault := by
    rw [parse]
    cases (lines text.toList).mapM (instructionOfLine? space) <;>
      simp [bind, Except.bind, pure, Except.pure]
  rw [stops, mapM_eq_error_iff]
  simp only [instructionOfLine?_eq_error_iff, exists_ok_iff_not_refuses]

theorem parse_eq_ok_iff {space : AddressSpace} {text : String} {listing : List Instruction} :
    parse space text = .ok listing ↔
      listing = (lines text.toList).filterMap (kept? space) ∧
        ∀ line ∈ lines text.toList, ∀ reason, ¬Refuses space line reason := by
  constructor
  · intro read
    obtain ⟨same, succeed⟩ := parse_eq_filterMap read
    exact ⟨same, fun line member => exists_ok_iff_not_refuses.mp ⟨_, succeed line member⟩⟩
  · rintro ⟨rfl, accepted⟩
    -- A failure would come from a line of the text.
    cases outcome : parse space text with
    | error fault =>
      obtain ⟨before, line, after, cut, refused, -⟩ := parse_eq_error_iff.mp outcome
      exact absurd refused (accepted line (by simp [cut]) fault)
    | ok listing => rw [(parse_eq_filterMap outcome).1]

theorem parse_append (space : AddressSpace) (x y : String) :
    parse space (x ++ "\n" ++ y) = do
      let first ← parse space x
      let second ← parse space y
      return first ++ second := by
  simp only [parse_eq_readLines_split]
  rw [String.toList_append, String.toList_append, List.append_assoc]
  change readLines space (split '\n' (x.toList ++ '\n' :: y.toList)) = _
  rw [split_append, readLines_append]

/-- Two texts with a line feed between them are read one after the other, and the first that fails
fails both. Carriage returns in front of the line feeds change nothing. A listing holds what its lines
contribute, in their order, unless a line in executable memory that has the form of an instruction is
none; the first such line is reported, whatever surrounds it. -/
theorem parse_line_by_line (space : AddressSpace) :
    (∀ x y : String, parse space (x ++ "\n" ++ y) = do
      let first ← parse space x
      let second ← parse space y
      return first ++ second) ∧
    (∀ text : String, parse space (String.ofList (withReturns text.toList)) = parse space text) ∧
    (∀ text listing, parse space text = .ok listing ↔
      listing = (lines text.toList).filterMap (kept? space) ∧
        ∀ line ∈ lines text.toList, ∀ reason, ¬Refuses space line reason) ∧
    ∀ text fault, parse space text = .error fault ↔
      ∃ before line after, lines text.toList = before ++ line :: after ∧
        Refuses space line fault ∧ ∀ other ∈ before, ∀ reason, ¬Refuses space other reason :=
  ⟨parse_append space, parse_withReturns space, fun _ _ => parse_eq_ok_iff,
    fun _ _ => parse_eq_error_iff⟩

end Disassembly.Listing
