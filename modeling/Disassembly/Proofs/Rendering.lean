import Disassembly.Output.Render
import Disassembly.Proofs.FailurePropagation

/-!
# What a run of the renderer writes

A line is written in pieces, and a run writes the pieces of `Renderer.linesFrom` one after the other
(`Renderer.sinks_run`). What is known about the registers never stops it, so a run ends like the
writes do. A sink without a limit takes every piece, and then holds the texts of the lines.
-/

namespace Disassembly.Output

/-! ### The texts of lines -/

/-- The text of an instruction line: the pseudo-code is filled up with blanks to 90 characters. -/
def instructionText (label rendering source : String) : String :=
  label ++ ":   " ++ (rendering ++ String.ofList (List.replicate (90 - rendering.length) ' ')) ++
    " // " ++ source ++ "\n"

/-- Every reference, with a blank in front of it. -/
def referencesText (found : List Reference) : String :=
  String.join (found.map fun reference =>
    " " ++ ((if reference.isCall then "call:" else "jump:") ++ reference.origin))

namespace Line

@[simp] theorem text_instruction (label rendering source : String) :
    (instruction label rendering source).text = instructionText label rendering source := by
  simp [text, pieces, instructionText, padRight, renderingWidth]

@[simp] theorem text_name (label : String) : (name label).text = label ++ ":\n" := by
  simp [text, pieces]

@[simp] theorem text_separator : separator.text = "\n\n" := by
  simp [text, pieces]

@[simp] theorem text_banner :
    banner.text = String.ofList (List.replicate 62 '-') ++ "\n\n\n" := by
  simp [text, pieces, bannerWidth]

@[simp] theorem text_references (found : List Reference) :
    (references found).text = "// xrefs from:" ++ referencesText found ++ "\n" := by
  simp [text, pieces, referencesText, Reference.text, String.append_assoc]

@[simp] theorem text_entry (found : TableEntry) :
    (entry found).text = found.table ++ "[" ++ Nat.repr found.index ++ "]" ++ ":\n" := by
  simp [text, pieces, TableEntry.text]

/-- The text that a line puts out. -/
inductive Writes : Line → String → Prop
  | instruction (label rendering source : String) :
      Writes (.instruction label rendering source) (instructionText label rendering source)
  | name (label : String) : Writes (.name label) (label ++ ":\n")
  | separator : Writes .separator "\n\n"
  | banner : Writes .banner (String.ofList (List.replicate 62 '-') ++ "\n\n\n")
  | references (found : List Reference) :
      Writes (.references found) ("// xrefs from:" ++ referencesText found ++ "\n")
  | entry (found : TableEntry) :
      Writes (.entry found) (found.table ++ "[" ++ Nat.repr found.index ++ "]" ++ ":\n")

theorem writes_text (line : Line) : line.Writes line.text := by
  cases line with
  | instruction label rendering source =>
    rw [text_instruction]
    exact .instruction label rendering source
  | name label =>
    rw [text_name]
    exact .name label
  | separator =>
    rw [text_separator]
    exact .separator
  | banner =>
    rw [text_banner]
    exact .banner
  | references found =>
    rw [text_references]
    exact .references found
  | entry found =>
    rw [text_entry]
    exact .entry found

theorem Writes.eq_text {line : Line} {written : String} (writes : line.Writes written) :
    written = line.text := by
  cases writes with
  | instruction label rendering source => exact (text_instruction label rendering source).symm
  | name label => exact (text_name label).symm
  | separator => exact text_separator.symm
  | banner => exact text_banner.symm
  | references found => exact (text_references found).symm
  | entry found => exact (text_entry found).symm

end Line

theorem forall₂_writes_text (lines : List Line) :
    List.Forall₂ Line.Writes lines (lines.map Line.text) := by
  induction lines with
  | nil => exact .nil
  | cons line rest ih => exact .cons line.writes_text ih

theorem eq_map_text_of_forall₂ {lines : List Line} {texts : List String}
    (writes : List.Forall₂ Line.Writes lines texts) : texts = lines.map Line.text := by
  induction writes with
  | nil => rfl
  | cons first _ ih => rw [List.map_cons, first.eq_text, ih]

/-- The bytes of lines. -/
def bytesOf (lines : List Line) : ByteArray :=
  (String.join (lines.map Line.text)).toUTF8

@[simp] theorem bytesOf_nil : bytesOf [] = ByteArray.empty := rfl

@[simp] theorem bytesOf_cons (line : Line) (rest : List Line) :
    bytesOf (line :: rest) = line.text.toUTF8 ++ bytesOf rest := by
  simp [bytesOf]

@[simp] theorem bytesOf_append (first second : List Line) :
    bytesOf (first ++ second) = bytesOf first ++ bytesOf second := by
  simp [bytesOf]

/-- The texts that lines are written in. -/
def piecesOf (lines : List Line) : List String :=
  lines.flatMap Line.pieces

/-- Joined, the pieces of lines are their texts. -/
theorem toUTF8_join_piecesOf (lines : List Line) :
    (String.join (piecesOf lines)).toUTF8 = bytesOf lines := by
  induction lines with
  | nil => rfl
  | cons line rest ih =>
    rw [bytesOf_cons, ← ih, piecesOf, List.flatMap_cons]
    simp [Line.text, piecesOf]

/-! ### Writing -/

namespace Sink

/-- A sink that has taken texts, each in one write. -/
def after (sink : Sink) (texts : List String) : Sink :=
  { sink with
    written := sink.written ++ (String.join texts).toUTF8
    attempts := sink.attempts + texts.length }

@[simp] theorem after_nil (sink : Sink) : sink.after [] = sink := by
  simp [after]

@[simp] theorem after_append (sink : Sink) (first second : List String) :
    (sink.after first).after second = sink.after (first ++ second) := by
  simp [after, ByteArray.append_assoc, Nat.add_assoc]

theorem written_after_piecesOf (sink : Sink) (lines : List Line) :
    (sink.after (piecesOf lines)).written = sink.written ++ bytesOf lines := by
  rw [after, toUTF8_join_piecesOf]

theorem write_of_fits {sink : Sink} {text : String}
    (fits : sink.accepts text.toUTF8.size = text.toUTF8.size) :
    sink.write text = .ok (sink.after [text]) := by
  simp only [write, fits, if_true, ByteArray.extract_zero_size]
  simp [after]

theorem writeAll_cons (sink : Sink) (text : String) (rest : List String) :
    sink.writeAll (text :: rest) = sink.write text >>= fun next => next.writeAll rest :=
  List.foldlM_cons ..

theorem writeAll_append (sink : Sink) (first second : List String) :
    sink.writeAll (first ++ second) = sink.writeAll first >>= fun next => next.writeAll second :=
  List.foldlM_append ..

theorem writeAll_cons_of_fits {sink : Sink} {text : String} {rest : List String}
    (fits : sink.accepts text.toUTF8.size = text.toUTF8.size)
    (later : (sink.after [text]).writeAll rest = .ok ((sink.after [text]).after rest)) :
    sink.writeAll (text :: rest) = .ok (sink.after (text :: rest)) := by
  rw [writeAll_cons, write_of_fits fits]
  change (sink.after [text]).writeAll rest = _
  rw [later, after_append, List.singleton_append]

/-- Without a limit everything is taken. -/
theorem writeAll_of_unlimited {sink : Sink} (unlimited : sink.limit = none) (texts : List String) :
    sink.writeAll texts = .ok (sink.after texts) := by
  induction texts generalizing sink with
  | nil =>
    rw [after_nil]
    rfl
  | cons text rest ih =>
    have fits : sink.accepts text.toUTF8.size = text.toUTF8.size := by
      simp only [accepts, unlimited]
    exact writeAll_cons_of_fits fits (ih unlimited)

end Sink

namespace Renderer

/-- The sinks of where a run has got to. -/
def Progress.sinks : Except Progress Progress → Except Sink Sink
  | .ok p => .ok p.sink
  | .error p => .error p.sink

theorem sinks_bind {outcome : Except Progress Progress}
    {next : Progress → Except Progress Progress} {rest : Sink → Except Sink Sink}
    (alike : ∀ p, outcome = .ok p → Progress.sinks (next p) = rest p.sink) :
    Progress.sinks (outcome >>= next) = Progress.sinks outcome >>= rest := by
  cases outcome with
  | error p => rfl
  | ok p => exact alike p rfl

theorem sinks_bind_pure {outcome : Except Progress Progress} {settle : Progress → Progress}
    (keeps : ∀ p, (settle p).sink = p.sink) :
    Progress.sinks (outcome >>= fun p => pure (settle p)) = Progress.sinks outcome := by
  cases outcome with
  | error p => rfl
  | ok p => exact congrArg Except.ok (keeps p)

theorem sinks_write (p : Progress) (line : Line) :
    Progress.sinks (p.write line) = p.sink.writeAll line.pieces := by
  rw [Progress.write]
  cases p.sink.writeAll line.pieces <;> rfl

theorem sinks_foldlM_write (lines : List Line) (p : Progress) :
    Progress.sinks (lines.foldlM Progress.write p) = p.sink.writeAll (piecesOf lines) := by
  induction lines generalizing p with
  | nil => rfl
  | cons line rest ih =>
    rw [List.foldlM_cons, piecesOf, List.flatMap_cons, Sink.writeAll_append, ← sinks_write]
    exact sinks_bind fun q _ => ih q

/-- An instruction writes its lines. -/
theorem sinks_step (r : Renderer) (p : Progress) (i : Listing.Instruction) :
    Progress.sinks (r.step p i) = p.sink.writeAll (piecesOf (r.lines p.knowledge i)) := by
  have headed := sinks_foldlM_write (r.heading i) { p with knowledge := r.entry p.knowledge i }
  rw [lines, piecesOf, List.flatMap_append, Sink.writeAll_append]
  change _ = p.sink.writeAll (piecesOf (r.heading i)) >>= _
  rw [← headed]
  apply sinks_bind
  intro q _
  -- The effect of the instruction changes what is known, never the sink.
  have body := sinks_write
    { q with knowledge := (Pseudocode.explain (r.entry p.knowledge i) i.operation).2 }
    (r.body (r.entry p.knowledge i) i)
  rw [List.flatMap_singleton, ← body]
  exact sinks_bind_pure fun _ => rfl

theorem knowledge_of_step {r : Renderer} {p q : Progress} {i : Listing.Instruction}
    (done : r.step p i = .ok q) : q.knowledge = r.next p.knowledge i := by
  obtain ⟨headed, -, done⟩ := exists_of_bind_eq_ok done
  obtain ⟨finished, -, done⟩ := exists_of_bind_eq_ok done
  cases done
  rfl

theorem sinks_foldlM_step (r : Renderer) (instructions : List Listing.Instruction)
    (p : Progress) :
    Progress.sinks (instructions.foldlM r.step p) =
      p.sink.writeAll (piecesOf (r.linesFrom p.knowledge instructions)) := by
  induction instructions generalizing p with
  | nil => rfl
  | cons i rest ih =>
    rw [List.foldlM_cons, linesFrom, piecesOf, List.flatMap_append, Sink.writeAll_append]
    change _ = p.sink.writeAll (piecesOf (r.lines p.knowledge i)) >>= _
    rw [← sinks_step]
    apply sinks_bind
    intro q done
    -- Which lines come next depends on what the step leaves known.
    rw [ih, knowledge_of_step done]
    rfl

theorem knowledge_of_foldlM_step {r : Renderer} {instructions : List Listing.Instruction}
    {p q : Progress} (done : instructions.foldlM r.step p = .ok q) :
    q.knowledge = r.knowledgeAfter p.knowledge instructions := by
  induction instructions generalizing p with
  | nil =>
    cases done
    rfl
  | cons i rest ih =>
    rw [List.foldlM_cons] at done
    obtain ⟨next, first, done⟩ := exists_of_bind_eq_ok done
    rw [ih done, knowledge_of_step first]
    rfl

/-- The texts that a run writes, one after the other. -/
def writes (r : Renderer) : List String :=
  piecesOf (r.linesFrom .unknown r.program.instructions)

/-- A run ends like its writes. -/
theorem sinks_run (r : Renderer) (sink : Sink) :
    Progress.sinks (r.run sink) = sink.writeAll r.writes :=
  sinks_foldlM_step r r.program.instructions { sink, knowledge := .unknown }

/-- A run on a sink without a limit ends, and has then written the lines of the program. -/
theorem run_of_unlimited (r : Renderer) {sink : Sink} (unlimited : sink.limit = none) :
    r.run sink = .ok {
      sink := sink.after r.writes
      knowledge := r.knowledgeAfter .unknown r.program.instructions } := by
  have written := r.sinks_run sink
  rw [Sink.writeAll_of_unlimited unlimited] at written
  cases ran : r.run sink with
  | error p =>
    rw [ran] at written
    cases written
  | ok p =>
    obtain ⟨left, known⟩ := p
    rw [ran] at written
    cases written
    cases knowledge_of_foldlM_step ran
    rfl

theorem knowledgeAfter_cons (r : Renderer) (k : Pseudocode.Knowledge) (i : Listing.Instruction)
    (rest : List Listing.Instruction) :
    r.knowledgeAfter k (i :: rest) = r.knowledgeAfter (r.next k i) rest := rfl

theorem knowledgeAfter_append (r : Renderer) (k : Pseudocode.Knowledge)
    (first second : List Listing.Instruction) :
    r.knowledgeAfter k (first ++ second) =
      r.knowledgeAfter (r.knowledgeAfter k first) second :=
  List.foldl_append

theorem linesFrom_append (r : Renderer) (k : Pseudocode.Knowledge)
    (first second : List Listing.Instruction) :
    r.linesFrom k (first ++ second) =
      r.linesFrom k first ++ r.linesFrom (r.knowledgeAfter k first) second := by
  induction first generalizing k with
  | nil => rfl
  | cons i rest ih =>
    rw [List.cons_append, linesFrom, linesFrom, ih, List.append_assoc]
    rfl

end Renderer

end Disassembly.Output
