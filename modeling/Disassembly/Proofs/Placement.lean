import Disassembly.Process
import Disassembly.Proofs.Reconstruction
import Disassembly.Proofs.Rendering

/-!
# Where the lines of instructions stand

Every instruction of a listing has one line in the output, except a `nop` that fills a delay slot,
and a `Placement` says where it is. Lines of instructions of the same kind keep the order of the
listing; a transfer stands right behind the instruction of its delay slot. Placements of two parts
join to one of the whole if the first part does not end in a transfer (`Placement.append`), and
pairing only ever cuts a listing there.
-/

namespace Disassembly.Output

open Listing

/-- A `nop` stands right after a control transfer. -/
def DroppedAt (listing : List Instruction) (n : Nat) : Prop :=
  ∃ m control nop, n = m + 1 ∧ listing[m]? = some control ∧ control.isControl = true ∧
    listing[n]? = some nop ∧ nop.mnemonic.isNop = true

/-- The instruction at a position, if it is written. -/
def KeptAt (listing : List Instruction) (n : Nat) (i : Instruction) : Prop :=
  listing[n]? = some i ∧ ¬DroppedAt listing n

/-- `place` gives for every position of the listing that is written the line it is written to. -/
structure Placement (symbols : Symbols) (listing : List Instruction) (lines : List Line)
    (place : Nat → Nat) : Prop where
  /-- Every instruction that is not dropped has its line. -/
  written : ∀ n i, KeptAt listing n i →
    ∃ label rendering, lines[place n]? = some (.instruction label rendering i.text)
  /-- There are no other lines of instructions. -/
  exhaustive : ∀ m label rendering text, lines[m]? = some (.instruction label rendering text) →
    ∃ n i, KeptAt listing n i ∧ place n = m
  /-- No two instructions share a line. -/
  distinct : ∀ n i m j, KeptAt listing n i → KeptAt listing m j → place n = place m → n = m
  /-- Transfers keep their order, and so do all others. -/
  ordered : ∀ n i m j, KeptAt listing n i → KeptAt listing m j → i.isControl = j.isControl →
    n < m → place n < place m
  /-- A transfer follows the instruction of its delay slot, with at most its name in between. -/
  adjacent : ∀ n control filler, listing[n]? = some control → control.isControl = true →
    listing[n + 1]? = some filler → filler.mnemonic.isNop = false →
      place n = place (n + 1) + 1 ∨
        place n = place (n + 1) + 2 ∧ ∃ name, symbols.name? control.address = some name ∧
          lines[place (n + 1) + 1]? = some (.name name)

/-! ### Joining placements -/

section Append

variable {first second : List Instruction}

/-- Nothing waits at the end of a listing. -/
def Settles (listing : List Instruction) : Prop :=
  ∀ i, listing[listing.length - 1]? = some i → i.isControl = false

theorem droppedAt_append_left {n : Nat} (within : n < first.length) :
    DroppedAt (first ++ second) n ↔ DroppedAt first n := by
  constructor
  · rintro ⟨m, control, nop, rfl, before, isControl, here, isNop⟩
    rw [List.getElem?_append_left within] at here
    rw [List.getElem?_append_left (by omega)] at before
    exact ⟨m, control, nop, rfl, before, isControl, here, isNop⟩
  · rintro ⟨m, control, nop, rfl, before, isControl, here, isNop⟩
    refine ⟨m, control, nop, rfl, ?_, isControl, ?_, isNop⟩
    · rw [List.getElem?_append_left (by omega)]
      exact before
    · rw [List.getElem?_append_left within]
      exact here

theorem getElem?_append_add {α : Type} (items more : List α) (n : Nat) :
    (items ++ more)[items.length + n]? = more[n]? := by
  rw [List.getElem?_append_right (by omega), Nat.add_sub_cancel_left]

theorem droppedAt_append_right (settles : Settles first) (n : Nat) :
    DroppedAt (first ++ second) (first.length + n) ↔ DroppedAt second n := by
  constructor
  · rintro ⟨m, control, nop, position, before, isControl, here, isNop⟩
    rw [getElem?_append_add] at here
    cases n with
    | zero =>
      -- The transfer would be the last instruction of the first part.
      rw [List.getElem?_append_left (by omega)] at before
      have last : m = first.length - 1 := by omega
      subst last
      rw [settles control before] at isControl
      cases isControl
    | succ n =>
      have shifted : m = first.length + n := by omega
      subst shifted
      rw [getElem?_append_add] at before
      exact ⟨n, control, nop, rfl, before, isControl, here, isNop⟩
  · rintro ⟨m, control, nop, rfl, before, isControl, here, isNop⟩
    refine ⟨first.length + m, control, nop, rfl, ?_, isControl, ?_, isNop⟩
    · rw [getElem?_append_add]
      exact before
    · rw [getElem?_append_add]
      exact here

theorem keptAt_append_left {n : Nat} (within : n < first.length) (i : Instruction) :
    KeptAt (first ++ second) n i ↔ KeptAt first n i := by
  rw [KeptAt, KeptAt, droppedAt_append_left within, List.getElem?_append_left within]

theorem keptAt_append_right (settles : Settles first) (n : Nat) (i : Instruction) :
    KeptAt (first ++ second) (first.length + n) i ↔ KeptAt second n i := by
  rw [KeptAt, KeptAt, droppedAt_append_right settles, getElem?_append_add]

theorem KeptAt.lt_length {listing : List Instruction} {n : Nat} {i : Instruction}
    (kept : KeptAt listing n i) : n < listing.length :=
  (List.getElem?_eq_some_iff.mp kept.1).1

theorem keptAt_append (settles : Settles first) {n : Nat} {i : Instruction} :
    KeptAt (first ++ second) n i ↔
      KeptAt first n i ∨ ∃ m, n = first.length + m ∧ KeptAt second m i := by
  constructor
  · intro kept
    by_cases within : n < first.length
    · exact .inl ((keptAt_append_left within i).mp kept)
    · have position : n = first.length + (n - first.length) := by omega
      rw [position, keptAt_append_right settles] at kept
      exact .inr ⟨n - first.length, position, kept⟩
  · rintro (kept | ⟨m, rfl, kept⟩)
    · exact (keptAt_append_left kept.lt_length i).mpr kept
    · exact (keptAt_append_right settles m i).mpr kept

/-- Places of a second part come after the lines of the first. -/
def joined (length lines : Nat) (place next : Nat → Nat) (n : Nat) : Nat :=
  if n < length then place n else lines + next (n - length)

theorem joined_of_lt {length lines : Nat} {place next : Nat → Nat} {n : Nat} (within : n < length) :
    joined length lines place next n = place n :=
  if_pos within

@[simp] theorem joined_add (length lines : Nat) (place next : Nat → Nat) (n : Nat) :
    joined length lines place next (length + n) = lines + next n := by
  rw [joined, if_neg (by omega), Nat.add_sub_cancel_left]

theorem Placement.lt_length {symbols : Symbols} {listing : List Instruction} {lines : List Line}
    {place : Nat → Nat} (placement : Placement symbols listing lines place) {n : Nat}
    {i : Instruction} (kept : KeptAt listing n i) : place n < lines.length := by
  obtain ⟨label, rendering, line⟩ := placement.written n i kept
  exact (List.getElem?_eq_some_iff.mp line).1

theorem Placement.append {symbols : Symbols} {lines more : List Line} {place next : Nat → Nat}
    (settles : Settles first) (placement : Placement symbols first lines place)
    (later : Placement symbols second more next) :
    Placement symbols (first ++ second) (lines ++ more)
      (joined first.length lines.length place next) where
  written n i kept := by
    rcases (keptAt_append settles).mp kept with early | ⟨n, rfl, late⟩
    · rw [joined_of_lt early.lt_length, List.getElem?_append_left (placement.lt_length early)]
      exact placement.written n i early
    · rw [joined_add, getElem?_append_add]
      exact later.written n i late
  exhaustive m label rendering text line := by
    by_cases within : m < lines.length
    · rw [List.getElem?_append_left within] at line
      obtain ⟨n, i, kept, same⟩ := placement.exhaustive m label rendering text line
      refine ⟨n, i, (keptAt_append settles).mpr (.inl kept), ?_⟩
      rw [joined_of_lt kept.lt_length, same]
    · have position : m = lines.length + (m - lines.length) := by omega
      rw [position, getElem?_append_add] at line
      obtain ⟨n, i, kept, same⟩ := later.exhaustive _ label rendering text line
      refine ⟨first.length + n, i, (keptAt_append settles).mpr (.inr ⟨n, rfl, kept⟩), ?_⟩
      rw [joined_add, same, ← position]
  distinct n i m j keptN keptM same := by
    -- Places of the first part lie below its number of lines, those of the second do not.
    rcases (keptAt_append settles).mp keptN with earlyN | ⟨n, rfl, lateN⟩ <;>
      rcases (keptAt_append settles).mp keptM with earlyM | ⟨m, rfl, lateM⟩
    · rw [joined_of_lt earlyN.lt_length, joined_of_lt earlyM.lt_length] at same
      exact placement.distinct n i m j earlyN earlyM same
    · rw [joined_of_lt earlyN.lt_length, joined_add] at same
      have bound := placement.lt_length earlyN
      omega
    · rw [joined_of_lt earlyM.lt_length, joined_add] at same
      have bound := placement.lt_length earlyM
      omega
    · rw [joined_add, joined_add] at same
      rw [later.distinct n i m j lateN lateM (by omega)]
  ordered n i m j keptN keptM kind before := by
    rcases (keptAt_append settles).mp keptN with earlyN | ⟨n, rfl, lateN⟩ <;>
      rcases (keptAt_append settles).mp keptM with earlyM | ⟨m, rfl, lateM⟩
    · rw [joined_of_lt earlyN.lt_length, joined_of_lt earlyM.lt_length]
      exact placement.ordered n i m j earlyN earlyM kind before
    · rw [joined_of_lt earlyN.lt_length, joined_add]
      have bound := placement.lt_length earlyN
      omega
    · have bound := earlyM.lt_length
      omega
    · rw [joined_add, joined_add]
      have earlier := later.ordered n i m j lateN lateM kind (by omega)
      omega
  adjacent n control filler here isControl after other := by
    by_cases within : n + 1 < first.length
    · rw [List.getElem?_append_left (by omega)] at here
      rw [List.getElem?_append_left within] at after
      rw [joined_of_lt within, joined_of_lt (by omega)]
      rcases placement.adjacent n control filler here isControl after other with
        next | ⟨next, name, configured, line⟩
      · exact .inl next
      · refine .inr ⟨next, name, configured, ?_⟩
        rw [List.getElem?_append_left (List.getElem?_eq_some_iff.mp line).1]
        exact line
    · by_cases last : n < first.length
      · -- The transfer would be the one that ends the first part.
        rw [List.getElem?_append_left last] at here
        have position : n = first.length - 1 := by omega
        subst position
        rw [settles control here] at isControl
        cases isControl
      · obtain ⟨m, rfl⟩ : ∃ m, n = first.length + m := ⟨n - first.length, by omega⟩
        rw [getElem?_append_add] at here
        rw [Nat.add_assoc, getElem?_append_add] at after
        rw [Nat.add_assoc, joined_add, joined_add]
        rcases later.adjacent m control filler here isControl after other with
          next | ⟨next, name, configured, line⟩
        · exact .inl (by omega)
        · refine .inr ⟨by omega, name, configured, ?_⟩
          rw [Nat.add_assoc, getElem?_append_add]
          exact line

end Append

/-! ### The lines of one instruction or pair -/

/-- Lines of which none is that of an instruction. -/
def Silent (lines : List Line) : Prop :=
  ∀ label rendering text, Line.instruction label rendering text ∉ lines

theorem Silent.position {lines rest : List Line} (silent : Silent lines) {m : Nat}
    {label rendering text : String}
    (line : (lines ++ rest)[m]? = some (.instruction label rendering text)) :
    ∃ n, m = lines.length + n ∧ rest[n]? = some (.instruction label rendering text) := by
  by_cases within : m < lines.length
  · rw [List.getElem?_append_left within] at line
    exact absurd (List.mem_of_getElem? line) (silent label rendering text)
  · have position : m = lines.length + (m - lines.length) := by omega
    rw [position, getElem?_append_add] at line
    exact ⟨m - lines.length, position, line⟩

/-- One instruction is written, and no transfer has another filler than a `nop`. -/
theorem placement_of_one (symbols : Symbols) {listing : List Instruction} {i : Instruction}
    {heading : List Line} (label rendering : String) (silent : Silent heading)
    (only : ∀ n j, KeptAt listing n j ↔ n = 0 ∧ j = i)
    (idle : ∀ n control filler, listing[n]? = some control → control.isControl = true →
      listing[n + 1]? = some filler → filler.mnemonic.isNop = true) :
    Placement symbols listing (heading ++ [.instruction label rendering i.text])
      (fun _ => heading.length) where
  written n j kept := by
    obtain ⟨-, rfl⟩ := (only n j).mp kept
    exact ⟨label, rendering, by simp⟩
  exhaustive m _ _ _ line := by
    obtain ⟨n, rfl, found⟩ := silent.position line
    have bound := (List.getElem?_eq_some_iff.mp found).1
    have zero : n = 0 := by simpa using bound
    exact ⟨0, i, (only 0 i).mpr ⟨rfl, rfl⟩, by omega⟩
  distinct n j m l keptN keptM _ := by
    rw [((only n j).mp keptN).1, ((only m l).mp keptM).1]
  ordered n j m l keptN keptM _ before := by
    have zero := ((only m l).mp keptM).1
    omega
  adjacent n control filler here isControl after other := by
    rw [idle n control filler here isControl after] at other
    cases other

theorem not_droppedAt_zero (listing : List Instruction) : ¬DroppedAt listing 0 := by
  rintro ⟨m, control, nop, position, -⟩
  omega

theorem placement_single (symbols : Symbols) (i : Instruction) {heading : List Line}
    (label rendering : String) (silent : Silent heading) :
    Placement symbols [i] (heading ++ [.instruction label rendering i.text])
      (fun _ => heading.length) := by
  refine placement_of_one symbols label rendering silent ?_ ?_
  · intro n j
    constructor
    · rintro ⟨here, -⟩
      cases n with
      | zero =>
        cases here
        exact ⟨rfl, rfl⟩
      | succ n => simp at here
    · rintro ⟨rfl, rfl⟩
      exact ⟨rfl, not_droppedAt_zero _⟩
  · intro n control filler _ _ after
    simp at after

theorem placement_nop (symbols : Symbols) {control nop : Instruction} {heading : List Line}
    (label rendering : String) (silent : Silent heading) (isControl : control.isControl = true)
    (isNop : nop.mnemonic.isNop = true) :
    Placement symbols [control, nop] (heading ++ [.instruction label rendering control.text])
      (fun _ => heading.length) := by
  refine placement_of_one symbols label rendering silent ?_ ?_
  · intro n j
    constructor
    · rintro ⟨here, kept⟩
      match n with
      | 0 =>
        cases here
        exact ⟨rfl, rfl⟩
      | 1 => exact absurd ⟨0, control, nop, rfl, rfl, isControl, rfl, isNop⟩ kept
      | n + 2 => simp at here
    · rintro ⟨rfl, rfl⟩
      exact ⟨rfl, not_droppedAt_zero _⟩
  · intro n _ filler _ _ after
    match n with
    | 0 =>
      cases after
      exact isNop
    | n + 1 => simp at after

theorem keptAt_pair {control filler : Instruction} (other : filler.mnemonic.isNop = false) {n : Nat}
    {i : Instruction} :
    KeptAt [control, filler] n i ↔ n = 0 ∧ i = control ∨ n = 1 ∧ i = filler := by
  constructor
  · rintro ⟨here, -⟩
    match n with
    | 0 =>
      cases here
      exact .inl ⟨rfl, rfl⟩
    | 1 =>
      cases here
      exact .inr ⟨rfl, rfl⟩
    | n + 2 => simp at here
  · rintro (⟨rfl, rfl⟩ | ⟨rfl, rfl⟩)
    · exact ⟨rfl, not_droppedAt_zero _⟩
    · refine ⟨rfl, ?_⟩
      rintro ⟨m, before, nop, -, -, -, here, isNop⟩
      cases here
      rw [other] at isNop
      cases isNop

/-- The filler comes first, and between it and the transfer stands at most a name. -/
theorem placement_pair (symbols : Symbols) {control filler : Instruction}
    {heading between : List Line} (label rendering label' rendering' : String)
    (silent : Silent heading) (isControl : control.isControl = true)
    (fits : filler.isControl = false) (other : filler.mnemonic.isNop = false)
    (named : between = [] ∨
      ∃ name, symbols.name? control.address = some name ∧ between = [.name name]) :
    Placement symbols [control, filler]
      ((heading ++ [.instruction label rendering filler.text]) ++
        (between ++ [.instruction label' rendering' control.text]))
      (fun n => if n = 0 then heading.length + 1 + between.length else heading.length) := by
  have quiet : Silent between := by
    rcases named with rfl | ⟨name, -, rfl⟩ <;> simp [Silent]
  have fillerLine : ((heading ++ [Line.instruction label rendering filler.text]) ++
      (between ++ [Line.instruction label' rendering' control.text]))[heading.length]? =
        some (.instruction label rendering filler.text) := by
    simp
  have controlLine : ((heading ++ [Line.instruction label rendering filler.text]) ++
      (between ++ [Line.instruction label' rendering' control.text]))[
        heading.length + 1 + between.length]? =
        some (.instruction label' rendering' control.text) := by
    rw [show heading.length + 1 = (heading ++ [Line.instruction label rendering filler.text]).length
      by simp, getElem?_append_add]
    simp
  refine ⟨?_, ?_, ?_, ?_, ?_⟩
  · intro n i kept
    rcases (keptAt_pair other).mp kept with ⟨rfl, rfl⟩ | ⟨rfl, rfl⟩
    · exact ⟨label', rendering', controlLine⟩
    · exact ⟨label, rendering, fillerLine⟩
  · intro m _ _ _ line
    rw [List.append_assoc] at line
    obtain ⟨n, rfl, found⟩ := silent.position line
    cases n with
    | zero => exact ⟨1, filler, (keptAt_pair other).mpr (.inr ⟨rfl, rfl⟩), rfl⟩
    | succ n =>
      -- Behind the filler comes at most a name, so the line is the one of the transfer.
      obtain ⟨rest, rfl, ends⟩ := quiet.position found
      have bound := (List.getElem?_eq_some_iff.mp ends).1
      have zero : rest = 0 := by simpa using bound
      refine ⟨0, control, (keptAt_pair other).mpr (.inl ⟨rfl, rfl⟩), ?_⟩
      simp only [if_true]
      omega
  · intro n i m j keptN keptM same
    rcases (keptAt_pair other).mp keptN with ⟨rfl, -⟩ | ⟨rfl, -⟩ <;>
      rcases (keptAt_pair other).mp keptM with ⟨rfl, -⟩ | ⟨rfl, -⟩ <;>
      simp at same ⊢ <;> omega
  · intro n i m j keptN keptM kind before
    rcases (keptAt_pair other).mp keptN with ⟨rfl, rfl⟩ | ⟨rfl, rfl⟩ <;>
      rcases (keptAt_pair other).mp keptM with ⟨rfl, rfl⟩ | ⟨rfl, rfl⟩
    · omega
    · rw [isControl, fits] at kind
      cases kind
    · omega
    · omega
  · intro n transfer next here _ after _
    match n with
    | 0 =>
      cases here
      rcases named with rfl | ⟨name, configured, rfl⟩
      · exact .inl rfl
      · refine .inr ⟨rfl, name, configured, ?_⟩
        simp
    | n + 1 => simp at after

/-! ### Rendered listings -/

namespace Renderer

theorem silent_heading (r : Renderer) (i : Instruction) : Silent (r.heading i) := by
  intro label rendering text member
  simp only [heading, notes] at member
  split at member <;> split at member <;> simp at member

/-- In front of an instruction that opens no block stands at most its configured name. -/
theorem heading_of_not_opensBlock (r : Renderer) {i : Instruction} (inside : i.opensBlock = false) :
    r.heading i = [] ∨
      ∃ name, r.symbols.name? i.address = some name ∧ r.heading i = [.name name] := by
  by_cases plain : r.symbols.label i.address = r.symbols.numericLabel i.address
  · left
    simp [heading, inside, plain]
  · right
    have heading : r.heading i = [.name (r.symbols.label i.address)] := by
      simp [heading, inside, plain]
    -- A label that is not numeric is a configured one.
    unfold Symbols.label at plain heading
    split at plain
    · exact absurd rfl plain
    · next noTable =>
      rw [if_neg noTable] at heading
      cases configured : r.symbols.name? i.address with
      | none =>
        rw [configured] at plain
        exact absurd rfl plain
      | some name =>
        rw [configured] at heading
        exact ⟨name, rfl, heading⟩

theorem linesFrom_single (r : Renderer) (k : Pseudocode.Knowledge) (i : Instruction) :
    r.linesFrom k [i] = r.lines k i := by
  simp [linesFrom]

theorem placement_lines (r : Renderer) (k : Pseudocode.Knowledge) (i : Instruction) :
    Placement r.symbols [i] (r.lines k i) (fun _ => (r.heading i).length) :=
  placement_single r.symbols i _ _ (r.silent_heading i)

theorem placement_exchanged (r : Renderer) (k : Pseudocode.Knowledge) {control filler : Instruction}
    (isControl : control.isControl = true) (fits : filler.isControl = false) :
    ∃ place, Placement r.symbols [control, filler] (r.linesFrom k (exchanged control filler))
      place := by
  cases isNop : filler.mnemonic.isNop with
  | true =>
    have one : exchanged control filler =
        [{ control with delaySlot := some filler.listedAddress }] := by
      simp [exchanged, isNop]
    rw [one, linesFrom_single]
    exact ⟨_, placement_nop r.symbols _ _ (r.silent_heading _) isControl isNop⟩
  | false =>
    have two : exchanged control filler =
        [{ filler with address := control.address },
          { control with delaySlot := some filler.listedAddress, opensBlock := false }] := by
      simp [exchanged, isNop]
    rw [two, linesFrom, linesFrom_single]
    exact ⟨_, placement_pair r.symbols _ _ _ _ (r.silent_heading _) isControl fits isNop
      (r.heading_of_not_opensBlock rfl)⟩

theorem placement_arranged (r : Renderer) {listing : List Instruction} (pairable : Pairable listing)
    (fresh : ∀ i ∈ listing, i.delaySlot = none) (k : Pseudocode.Knowledge) :
    ∃ place, Placement r.symbols listing (r.linesFrom k (arranged listing)) place := by
  induction pairable generalizing k with
  | nil =>
    refine ⟨id, ?_⟩
    constructor <;> simp [KeptAt, linesFrom, arranged]
  | @plain i rest done _ ih =>
    -- Nothing is paired yet, so an instruction that is not held is no transfer.
    have noControl : i.isControl = false := by
      simpa [Instruction.isUnpaired, fresh i List.mem_cons_self] using done
    have freshRest : ∀ j ∈ rest, j.delaySlot = none := fun j member =>
      fresh j (List.mem_cons_of_mem _ member)
    obtain ⟨place, later⟩ := ih freshRest (r.next k i)
    have settles : Settles [i] := by simpa [Settles] using noControl
    rw [arranged_plain done]
    exact ⟨_, (r.placement_lines k i).append settles later⟩
  | @pending control _ =>
    rw [arranged, linesFrom_single]
    exact ⟨_, r.placement_lines k control⟩
  | @pair control filler rest waits fits _ ih =>
    obtain ⟨place, here⟩ := r.placement_exchanged k (isControl_of_isUnpaired waits) fits
    obtain ⟨next, later⟩ := ih (fun j member => fresh j (by simp [member]))
      (r.knowledgeAfter k (exchanged control filler))
    have settles : Settles [control, filler] := by simpa [Settles] using fits
    rw [arranged_pair waits, linesFrom_append]
    exact ⟨_, here.append settles later⟩

end Renderer

end Disassembly.Output

namespace Disassembly

open Listing Output

/-! ### From the text of a listing to the bytes of the output -/

theorem Listing.Instruction.delaySlot_of_decode {address : UInt32} {name operands : String}
    {i : Instruction} (decoded : Instruction.decode address name operands = .ok i) :
    i.delaySlot = none := by
  unfold Instruction.decode at decoded
  split at decoded
  · cases decoded
  · dsimp only at decoded
    split at decoded
    · cases decoded
    · cases decoded
      rfl

theorem Listing.delaySlot_of_instructionOfLine? {space : Memory.AddressSpace} {line : List Char}
    {i : Instruction} (read : instructionOfLine? space line = .ok (some i)) :
    i.delaySlot = none := by
  unfold instructionOfLine? at read
  split at read
  · cases read
  · next parsed _ =>
    dsimp only at read
    split at read
    · cases decoded : Instruction.decode (space.canonical parsed.address) parsed.mnemonic
          parsed.operands with
      | error fault =>
        rw [decoded] at read
        cases read
      | ok found =>
        rw [decoded] at read
        cases read
        exact Instruction.delaySlot_of_decode decoded
    · cases read

/-- No instruction of a listing that has been read is paired yet. -/
theorem Listing.delaySlot_of_parse {space : Memory.AddressSpace} {text : String}
    {listing : List Instruction} (returned : Listing.parse space text = .ok listing) :
    ∀ i ∈ listing, i.delaySlot = none := by
  obtain ⟨found, read, returned⟩ := exists_of_bind_eq_ok returned
  cases returned
  intro i member
  obtain ⟨result, present, same⟩ := List.mem_filterMap.mp member
  cases same
  obtain ⟨line, -, decoded⟩ := exists_of_mem_mapM_eq_ok read present
  exact delaySlot_of_instructionOfLine? decoded

/-- What an analysis comes from. -/
theorem analyse_eq_ok {annotations : Annotations} {firmware : Array UInt8} {text : String}
    {analysis : Analysis} (returned : analyse annotations firmware text = .ok analysis) :
    ∃ listing, Listing.parse annotations.space text = .ok listing ∧
      Symbols.build annotations firmware (annotations.functionSet listing) =
        .ok analysis.symbols ∧
      Program.reconstruct analysis.symbols listing = .ok analysis.program := by
  obtain ⟨listing, read, returned⟩ := exists_of_bind_eq_ok returned
  obtain ⟨symbols, built, returned⟩ := exists_of_bind_eq_ok returned
  obtain ⟨program, made, returned⟩ := exists_of_bind_eq_ok returned
  cases returned
  exact ⟨listing, mapError_eq_ok_iff.mp read, built, made⟩

theorem process_eq_ok {annotations : Annotations} {firmware : Array UInt8} {text : String}
    {sink result : Sink} (unlimited : sink.limit = none)
    (returned : process annotations firmware text sink = .ok result) :
    ∃ analysis, analyse annotations firmware text = .ok analysis ∧
      result = sink.after analysis.renderer.writes := by
  unfold process at returned
  cases analysed : analyse annotations firmware text with
  | error reason =>
    rw [analysed] at returned
    cases returned
  | ok analysis =>
    simp only [analysed, Renderer.run_of_unlimited _ unlimited] at returned
    cases returned
    exact ⟨analysis, rfl, rfl⟩

/-- On a sink without a limit what can be analysed is written to its end. -/
theorem process_of_analyse {annotations : Annotations} {firmware : Array UInt8} {text : String}
    {sink : Sink} (unlimited : sink.limit = none)
    (analysed : (analyse annotations firmware text).isOk = true) :
    ∃ result, process annotations firmware text sink = .ok result := by
  obtain ⟨analysis, outcome⟩ := exists_of_isOk analysed
  simp only [process, outcome, Renderer.run_of_unlimited _ unlimited]
  exact ⟨_, rfl⟩

/-- The lines that are written for a listing hold every instruction of it once, except the `nop`s in
delay slots, and nothing moves further than across its delay slot. The output is made of the texts of
these lines, and the text of an instruction line carries that of its instruction. -/
theorem process_places_every_instruction (annotations : Annotations) (firmware : Array UInt8)
    (text : String) (sink result : Sink) (unlimited : sink.limit = none)
    (returned : process annotations firmware text sink = .ok result) :
    ∃ listing analysis lines texts place,
      Listing.parse annotations.space text = .ok listing ∧
      analyse annotations firmware text = .ok analysis ∧
      lines = analysis.renderer.linesFrom .unknown analysis.program.instructions ∧
      result.written = sink.written ++ (String.join texts).toUTF8 ∧
      List.Forall₂ Line.Writes lines texts ∧
      Placement analysis.symbols listing lines place ∧
      ∀ n i, KeptAt listing n i →
        ∃ label rendering, texts[place n]? = some (instructionText label rendering i.text) := by
  obtain ⟨analysis, analysed, rfl⟩ := process_eq_ok unlimited returned
  obtain ⟨listing, read, -, made⟩ := analyse_eq_ok analysed
  obtain ⟨pairable, arrangement⟩ := Program.instructions_of_reconstruct made
  obtain ⟨place, placement⟩ := analysis.renderer.placement_arranged pairable
    (delaySlot_of_parse read) .unknown
  rw [← arrangement] at placement
  refine ⟨listing, analysis, _, _, place, read, analysed, rfl, ?_, forall₂_writes_text _,
    placement, ?_⟩
  · exact sink.written_after_piecesOf _
  · intro n i kept
    obtain ⟨label, rendering, line⟩ := placement.written n i kept
    exact ⟨label, rendering, by rw [List.getElem?_map, line, Option.map_some, Line.text_instruction]⟩

/-- A call with a filler in its delay slot, a branch with a `nop`, and a jump at the end. -/
def delayedText : String :=
  "0: 04 00 00 02 l.jal 8\n4: 9c 63 00 01 l.addi r3,r3,1\n8: 10 00 00 02 l.bf 10\n" ++
    "c: 15 00 00 00 l.nop\n10: 00 00 00 00 l.j 10\n"

def delayedAnnotations : Annotations where
  space := { ranges := [{ kind := .code, start := 0, last := 0xff, label := "code" }] }

def delayedListing : List Instruction :=
  [{ address := 0, listedAddress := 0, operation := .branch .jal 8, text := "l.jal 8" },
    { address := 4, listedAddress := 4,
      operation := .aluImmediate .addi .firstArgument .firstArgument 1, text := "l.addi r3,r3,1" },
    { address := 8, listedAddress := 8, operation := .branch .bf 0x10, text := "l.bf 10" },
    { address := 12, listedAddress := 12, operation := .bare .nop, text := "l.nop" },
    { address := 16, listedAddress := 16, operation := .branch .j 0x10, text := "l.j 10" }]

def delayedLines : List Output.Line :=
  [.instruction "l_000000" "A1 = A1 + 1" "l.addi r3,r3,1",
    .instruction "l_000000" "call fn_000008" "l.jal 8",
    .separator, .banner, .references [⟨true, "l_000000"⟩],
    .instruction "fn_000008" "if (FLAG) goto l_000010" "l.bf 10",
    .separator, .references [⟨false, "fn_000008"⟩, ⟨false, "l_000010"⟩],
    .instruction "l_000010" "goto l_000010" "l.j 10"]

def delayedOutput : String :=
  "l_000000:   A1 = A1 + 1".pushn ' ' 79 ++ " // l.addi r3,r3,1\n" ++
  "l_000000:   call fn_000008".pushn ' ' 76 ++ " // l.jal 8\n" ++
  "\n\n" ++ "".pushn '-' 62 ++ "\n\n\n" ++ "// xrefs from: call:l_000000\n" ++
  "fn_000008:   if (FLAG) goto l_000010".pushn ' ' 67 ++ " // l.bf 10\n" ++
  "\n\n" ++ "// xrefs from: jump:fn_000008 jump:l_000010\n" ++
  "l_000010:   goto l_000010".pushn ' ' 77 ++ " // l.j 10\n"

theorem exists_delayed_analysis :
    ∃ analysis, analyse delayedAnnotations #[] delayedText = .ok analysis ∧
      analysis.renderer.linesFrom .unknown analysis.program.instructions = delayedLines := by
  have outcome : (analyse delayedAnnotations #[] delayedText).toOption.map (fun analysis =>
      analysis.renderer.linesFrom .unknown analysis.program.instructions) =
        some delayedLines := by
    decide +kernel
  cases analysed : analyse delayedAnnotations #[] delayedText with
  | error reason =>
    rw [analysed] at outcome
    cases outcome
  | ok analysis =>
    rw [analysed] at outcome
    exact ⟨analysis, rfl, Option.some.inj outcome⟩

theorem bytesOf_delayedLines : bytesOf delayedLines = delayedOutput.toUTF8 := by
  have output : String.join (delayedLines.map Line.text) = delayedOutput := by decide +kernel
  rw [bytesOf, output]

/-- The filler of the call comes first, the `nop` behind the branch has no line, and the branch and
the jump have theirs behind the notes on their addresses. -/
theorem process_places_every_instruction_delayed :
    ∃ result analysis place,
      process delayedAnnotations #[] delayedText {} = .ok result ∧
      result.written = delayedOutput.toUTF8 ∧
      Listing.parse delayedAnnotations.space delayedText = .ok delayedListing ∧
      analyse delayedAnnotations #[] delayedText = .ok analysis ∧
      Placement analysis.symbols delayedListing delayedLines place ∧
      place 1 = 0 ∧ place 0 = 1 ∧ DroppedAt delayedListing 3 ∧ place 2 = 5 ∧ place 4 = 8 := by
  obtain ⟨analysis, analysed, shown⟩ := exists_delayed_analysis
  obtain ⟨result, returned⟩ :=
    process_of_analyse (rfl : Sink.limit {} = none) (by rw [analysed]; rfl)
  obtain ⟨listing, again, lines, texts, place, read, same, rfl, written, writes, placement, -⟩ :=
    process_places_every_instruction delayedAnnotations #[] delayedText {} result rfl returned
  cases analysed.symm.trans same
  have listed : Listing.parse delayedAnnotations.space delayedText = .ok delayedListing :=
    eq_ok_of_toOption (by decide +kernel)
  cases listed.symm.trans read
  rw [shown] at writes placement
  have placed {m n : Nat} {label rendering source : String}
      (line : delayedLines[m]? = some (.instruction label rendering source))
      (stands : (delayedListing.map (·.text))[n]? = some source) : place n = m := by
    obtain ⟨k, i, kept, here⟩ := placement.exhaustive m _ _ _ line
    obtain ⟨label', rendering', again⟩ := placement.written k i kept
    rw [here, line] at again
    cases again
    have other : (delayedListing.map (·.text))[k]? = some i.text := by
      rw [List.getElem?_map, kept.1, Option.map_some]
    -- No two instructions of the listing have the same text.
    have bound := (List.getElem?_eq_some_iff.mp other).1
    rw [← (List.getElem?_inj bound (by decide)).mp (other.trans stands.symm)]
    exact here
  refine ⟨result, analysis, place, returned, ?_, read, same, placement, placed rfl rfl,
    placed rfl rfl, ⟨2, _, _, rfl, rfl, rfl, rfl, rfl⟩, placed rfl rfl, placed rfl rfl⟩
  rw [written, eq_map_text_of_forall₂ writes]
  exact bytesOf_delayedLines

end Disassembly
