import Disassembly.CommandLine
import Disassembly.Proofs.Placement

/-!
# What a full sink keeps

A sink with a limit takes writes until one passes the limit, and keeps the part of that one that
fits. A run makes its writes one after the other, each line in its pieces, and stops at the first
that is refused. So it leaves the first bytes of what a sink without a limit gets, and has attempted
the writes up to the one that was refused. Which writes a run makes does not depend on the sink, and
no sink is touched before a listing has been analysed.
-/

namespace Disassembly.Output

/-- How many bytes texts have together. -/
def byteCount (texts : List String) : Nat :=
  (String.join texts).toUTF8.size

@[simp] theorem byteCount_nil : byteCount [] = 0 := rfl

@[simp] theorem byteCount_cons (text : String) (rest : List String) :
    byteCount (text :: rest) = text.toUTF8.size + byteCount rest := by
  simp [byteCount]

@[simp] theorem byteCount_append (first second : List String) :
    byteCount (first ++ second) = byteCount first + byteCount second := by
  simp [byteCount]

/-- The first of some texts with which they pass a limit. -/
theorem exists_first_passing {texts : List String} {limit : Nat} (passes : limit < byteCount texts) :
    ∃ before text after, texts = before ++ text :: after ∧ byteCount before ≤ limit ∧
      limit < byteCount (before ++ [text]) := by
  induction texts generalizing limit with
  | nil => simp at passes
  | cons text rest ih =>
    rw [byteCount_cons] at passes
    by_cases fits : text.toUTF8.size ≤ limit
    · -- The texts behind it have to pass what it leaves of the limit.
      obtain ⟨before, next, after, rfl, taken, refused⟩ :=
        ih (show limit - text.toUTF8.size < byteCount rest by omega)
      refine ⟨text :: before, next, after, rfl, ?_, ?_⟩
      · rw [byteCount_cons]
        omega
      · rw [List.cons_append, byteCount_cons]
        omega
    · refine ⟨[], text, rest, rfl, Nat.zero_le limit, ?_⟩
      rw [List.nil_append, byteCount_cons, byteCount_nil]
      omega

theorem extract_append_of_le {first second : ByteArray} {limit : Nat}
    (short : limit ≤ first.size) : (first ++ second).extract 0 limit = first.extract 0 limit := by
  rw [ByteArray.extract_append, Nat.sub_eq_zero_of_le short]
  simp

namespace Sink

section Limited

variable {sink : Sink} {limit : Nat} (limited : sink.limit = some limit)

include limited

/-- Texts are taken as long as they fit. -/
theorem writeAll_of_fits {texts : List String} (fits : sink.written.size + byteCount texts ≤ limit) :
    sink.writeAll texts = .ok (sink.after texts) := by
  induction texts generalizing sink with
  | nil =>
    rw [after_nil]
    rfl
  | cons text rest ih =>
    rw [byteCount_cons] at fits
    have first : sink.accepts text.toUTF8.size = text.toUTF8.size := by
      simp only [accepts, limited]
      omega
    have room : (sink.after [text]).written.size + byteCount rest ≤ limit := by
      simp only [after, String.join_cons, String.join_nil, String.append_empty,
        ByteArray.size_append]
      omega
    exact writeAll_cons_of_fits first (ih limited room)

/-- Of the write that passes the limit, what fits is kept. -/
theorem write_of_passes {text : String} (room : sink.written.size ≤ limit)
    (passes : limit < sink.written.size + text.toUTF8.size) :
    sink.write text = .error { sink with
      written := (sink.written ++ text.toUTF8).extract 0 limit
      attempts := sink.attempts + 1 } := by
  have accepted : sink.accepts text.toUTF8.size = limit - sink.written.size := by
    simp only [accepts, limited]
    omega
  have kept : (sink.written ++ text.toUTF8).extract 0 limit =
      sink.written ++ text.toUTF8.extract 0 (limit - sink.written.size) := by
    have all : sink.written.extract 0 limit = sink.written :=
      ByteArray.ext (by simp [room])
    rw [ByteArray.extract_append, all, Nat.zero_sub]
  rw [write, accepted, if_neg (by omega), kept]

/-- Nothing is attempted behind the text that passes the limit. -/
theorem writeAll_of_passes {before after : List String} {text : String}
    (fits : sink.written.size + byteCount before ≤ limit)
    (passes : limit < sink.written.size + byteCount (before ++ [text])) :
    sink.writeAll (before ++ text :: after) = .error { sink with
      written := (sink.written ++ (String.join (before ++ text :: after)).toUTF8).extract 0 limit
      attempts := sink.attempts + before.length + 1 } := by
  have size : (sink.after before).written.size = sink.written.size + byteCount before := by
    simp [Sink.after, byteCount]
  rw [byteCount_append, byteCount_cons, byteCount_nil] at passes
  have still : (sink.after before).limit = some limit := limited
  have refused : (sink.after before).write text = _ :=
    write_of_passes still (by omega) (by omega)
  -- What would come behind the text that passes the limit is not kept anyway.
  have kept : (sink.written ++ (String.join (before ++ text :: after)).toUTF8).extract 0 limit =
      ((sink.after before).written ++ text.toUTF8).extract 0 limit := by
    have cut : sink.written ++ (String.join (before ++ text :: after)).toUTF8 =
        (sink.after before).written ++ text.toUTF8 ++ (String.join after).toUTF8 := by
      simp [Sink.after, ByteArray.append_assoc]
    rw [cut]
    apply extract_append_of_le
    rw [ByteArray.size_append]
    omega
  rw [writeAll_append, writeAll_of_fits limited fits, kept]
  change (sink.after before).writeAll (text :: after) = _
  rw [writeAll_cons, refused]
  rfl

end Limited

end Sink

end Disassembly.Output

namespace Disassembly

open Output

/-! ### Analysis comes first -/

/-- A listing has no analysis: it cannot be read, its addresses cannot be named, or its control flow
cannot be reconstructed. The last two may also be because of a table without an end. -/
inductive AnalysisFails (annotations : Annotations) (firmware : Array UInt8) (text : String) :
    NoValue → Prop
  | reading {fault : Fault} : Listing.parse annotations.space text = .error fault →
      AnalysisFails annotations firmware text (.fault fault)
  | naming {reason : NoValue} {listing : List Listing.Instruction} :
      Listing.parse annotations.space text = .ok listing →
      Symbols.build annotations firmware (annotations.functionSet listing) = .error reason →
      AnalysisFails annotations firmware text reason
  | reconstructing {reason : NoValue} {listing : List Listing.Instruction} {symbols : Symbols} :
      Listing.parse annotations.space text = .ok listing →
      Symbols.build annotations firmware (annotations.functionSet listing) = .ok symbols →
      Program.reconstruct symbols listing = .error reason →
      AnalysisFails annotations firmware text reason

section Analysis

variable {annotations : Annotations} {firmware : Array UInt8} {text : String} {reason : NoValue}

theorem analyse_eq_error_iff :
    analyse annotations firmware text = .error reason ↔
      AnalysisFails annotations firmware text reason := by
  constructor
  · intro failed
    cases read : Listing.parse annotations.space text with
    | error other =>
      simp only [analyse, read, Except.mapError, bind, Except.bind] at failed
      cases failed
      exact .reading read
    | ok listing =>
      simp only [analyse, read, Except.mapError, bind, Except.bind] at failed
      cases built : Symbols.build annotations firmware (annotations.functionSet listing) with
      | error other =>
        simp only [Analysis.ofInstructions, built, bind, Except.bind] at failed
        cases failed
        exact .naming read built
      | ok symbols =>
        cases made : Program.reconstruct symbols listing with
        | error other =>
          simp only [Analysis.ofInstructions, built, made, bind, Except.bind] at failed
          cases failed
          exact .reconstructing read built made
        | ok program =>
          simp only [Analysis.ofInstructions, built, made, bind, Except.bind] at failed
          cases failed
  · intro fails
    cases fails with
    | reading failed => simp only [analyse, failed, Except.mapError, bind, Except.bind]
    | naming read failed =>
      simp only [analyse, Analysis.ofInstructions, read, failed, Except.mapError, bind, Except.bind]
    | reconstructing read built failed =>
      simp only [analyse, Analysis.ofInstructions, read, built, failed, Except.mapError, bind,
        Except.bind]

/-- The command puts nothing out for a listing that is not analysed. -/
theorem output_runListing_of_fails (fails : AnalysisFails annotations firmware text reason)
    (log : List String) (path : String) :
    (CommandLine.runListing log path annotations ⟨firmware⟩ text).output = .empty := by
  cases fails with
  | reading failed =>
    simp only [CommandLine.runListing, failed]
    rfl
  | naming read failed =>
    simp only [CommandLine.runListing, Analysis.ofInstructions, read, failed, bind, Except.bind]
    cases reason <;> rfl
  | reconstructing read built failed =>
    simp only [CommandLine.runListing, Analysis.ofInstructions, read, built, failed, bind,
      Except.bind]
    cases reason <;> rfl

/-! ### The whole way -/

theorem process_of_fails (fails : AnalysisFails annotations firmware text reason) (sink : Sink) :
    process annotations firmware text sink = .error (.analysis reason sink) := by
  simp only [process, analyse_eq_error_iff.mpr fails]

theorem process_of_analysis {analysis : Analysis}
    (analysed : analyse annotations firmware text = .ok analysis) (sink : Sink) :
    process annotations firmware text sink =
      (sink.writeAll analysis.renderer.writes).mapError .full := by
  rw [← Renderer.sinks_run]
  simp only [process, analysed]
  cases analysis.renderer.run sink <;> rfl

end Analysis

/-- A listing that has no analysis leaves every sink as it is. Any other is written in the same way
whatever the sink is. A sink with a limit keeps the first bytes of what an unlimited one gets;
processing fails exactly if these are not all, and then the last write that is attempted is the first
one that passes the limit. -/
theorem process_keeps_first_bytes (annotations : Annotations) (firmware : Array UInt8)
    (text : String) (limit : Nat) :
    (∀ reason, AnalysisFails annotations firmware text reason →
      (∀ sink, process annotations firmware text sink = .error (.analysis reason sink)) ∧
      ∀ log path, (CommandLine.runListing log path annotations ⟨firmware⟩ text).output = .empty) ∧
    ((¬ ∃ reason, AnalysisFails annotations firmware text reason) →
      ∃ analysis output, analyse annotations firmware text = .ok analysis ∧
        process annotations firmware text {} =
          .ok { written := output, attempts := analysis.renderer.writes.length } ∧
        (output.size ≤ limit →
          process annotations firmware text { limit := some limit } = .ok {
            limit := some limit
            written := output
            attempts := analysis.renderer.writes.length }) ∧
        (limit < output.size →
          ∃ before refused after, analysis.renderer.writes = before ++ refused :: after ∧
            byteCount before ≤ limit ∧ limit < byteCount (before ++ [refused]) ∧
            process annotations firmware text { limit := some limit } = .error (.full {
              limit := some limit
              written := output.extract 0 limit
              attempts := before.length + 1 }))) := by
  constructor
  · intro reason fails
    exact ⟨process_of_fails fails, output_runListing_of_fails fails⟩
  · intro analysable
    cases analysed : analyse annotations firmware text with
    | error reason => exact absurd ⟨reason, analyse_eq_error_iff.mp analysed⟩ analysable
    | ok analysis =>
      refine ⟨analysis, (String.join analysis.renderer.writes).toUTF8, rfl, ?_, ?_, ?_⟩
      · rw [process_of_analysis analysed, Sink.writeAll_of_unlimited rfl]
        simp [Sink.after, Except.mapError]
      · intro fits
        have taken : Sink.writeAll { limit := some limit } analysis.renderer.writes = _ :=
          Sink.writeAll_of_fits rfl (by simpa [byteCount] using fits)
        rw [process_of_analysis analysed, taken]
        simp [Sink.after, Except.mapError]
      · intro passes
        obtain ⟨before, refused, after, split, taken, beyond⟩ := exists_first_passing passes
        have stopped : Sink.writeAll { limit := some limit } (before ++ refused :: after) = _ :=
          Sink.writeAll_of_passes rfl (by simpa using taken) (by simpa using beyond)
        refine ⟨before, refused, after, split, taken, beyond, ?_⟩
        rw [process_of_analysis analysed, split, stopped]
        simp [Except.mapError]

/-- Two jumps, the second in the delay slot of the first. -/
def crowdedText : String :=
  "0: 00 00 00 00 l.j 0\n4: 00 00 00 00 l.j 0\n"

/-- The limit is passed by a reference. It is the sixth write, and the end of its line is not
attempted any more. -/
theorem process_keeps_first_bytes_delayed :
    (∃ reason, AnalysisFails delayedAnnotations #[] crowdedText reason ∧
      process delayedAnnotations #[] crowdedText { limit := some 320 } =
        .error (.analysis reason { limit := some 320 })) ∧
    process delayedAnnotations #[] delayedText {} =
      .ok { written := delayedOutput.toUTF8, attempts := 14 } ∧
    process delayedAnnotations #[] delayedText { limit := some 320 } = .error (.full {
      limit := some 320
      written := delayedOutput.toUTF8.extract 0 320
      attempts := 6 }) := by
  constructor
  · cases failed : analyse delayedAnnotations #[] crowdedText with
    | ok analysis =>
      have refused : (analyse delayedAnnotations #[] crowdedText).isOk = false := by
        decide +kernel
      simp [failed, Except.isOk, Except.toBool] at refused
    | error reason =>
      have fails := analyse_eq_error_iff.mp failed
      exact ⟨reason, fails, ((process_keeps_first_bytes _ _ _ 320).1 reason fails).1 _⟩
  · obtain ⟨analysis, analysed, shown⟩ := exists_delayed_analysis
    have analysable : ¬ ∃ reason, AnalysisFails delayedAnnotations #[] delayedText reason := by
      rintro ⟨reason, fails⟩
      cases analysed.symm.trans (analyse_eq_error_iff.mpr fails)
    obtain ⟨again, output, same, unlimited, -, limited⟩ :=
      (process_keeps_first_bytes delayedAnnotations #[] delayedText 320).2 analysable
    cases analysed.symm.trans same
    have writes : analysis.renderer.writes = piecesOf delayedLines := congrArg piecesOf shown
    have whole : output = delayedOutput.toUTF8 := by
      have ran := process_of_analysis analysed {}
      rw [unlimited, Sink.writeAll_of_unlimited rfl, writes] at ran
      have left := congrArg Sink.written (Except.ok.inj ran)
      rw [Sink.written_after_piecesOf, bytesOf_delayedLines] at left
      simpa using left
    subst whole
    rw [writes] at unlimited limited
    obtain ⟨before, refused, after, split, taken, beyond, stopped⟩ := limited (by decide +kernel)
    have sixth : ∀ k < 14, byteCount ((piecesOf delayedLines).take k) ≤ 320 →
        320 < byteCount ((piecesOf delayedLines).take (k + 1)) → k = 5 := by
      decide +kernel
    have front : (piecesOf delayedLines).take before.length = before := by simp [split]
    have reached : (piecesOf delayedLines).take (before.length + 1) = before ++ [refused] := by
      rw [split, List.take_length_add_append]
      rfl
    have count : before.length = 5 := by
      have bound := congrArg List.length split
      have fourteen : (piecesOf delayedLines).length = 14 := rfl
      rw [List.length_append, List.length_cons] at bound
      exact sixth before.length (by omega) (front.symm ▸ taken) (reached.symm ▸ beyond)
    rw [count] at stopped
    exact ⟨unlimited, stopped⟩

end Disassembly
