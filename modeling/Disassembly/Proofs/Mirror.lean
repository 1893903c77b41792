import Disassembly.Config.Parse
import Disassembly.Proofs.FailurePropagation

/-!
# The mirrored window and the memory it shows

Inside its window a mirror moves addresses by a constant, and addresses wrap around. So different
addresses of the window have different canonical forms, and an address outside is its own. Whether
canonical forms lie outside the window depends on the memory that is shown. A layout is accepted if
the window and that memory are apart, but `Mirror.overlaps` compares them without wrapping. Memory
that passes the end of the address space continues at its start, and may come to the window there.
`Mirror.EndsBefore` says that it does not; the laws that need it hold exactly then.
-/

namespace Disassembly.Memory.Mirror

/-- The memory that is shown ends before the window, if it passes the end of the address space. -/
def EndsBefore (mirror : Mirror) : Prop :=
  mirror.canonical.toNat + mirror.size.toNat ≤ UInt32.size + mirror.start.toNat

instance (mirror : Mirror) : Decidable mirror.EndsBefore :=
  inferInstanceAs (Decidable (_ ≤ _))

/-! ### Windows as intervals of numbers -/

/-- A window that passes the end of the address space stops there. -/
theorem contains_iff {mirror : Mirror} {address : UInt32} :
    mirror.contains address = true ↔
      mirror.start.toNat ≤ address.toNat ∧
        address.toNat < mirror.start.toNat + mirror.size.toNat := by
  simp only [contains, Bool.and_eq_true, decide_eq_true_eq, UInt32.le_iff_toNat_le,
    UInt32.lt_iff_toNat_lt]
  constructor
  · rintro ⟨above, within⟩
    rw [UInt32.toNat_sub_of_le _ _ (UInt32.le_iff_toNat_le.mpr above)] at within
    omega
  · rintro ⟨above, within⟩
    rw [UInt32.toNat_sub_of_le _ _ (UInt32.le_iff_toNat_le.mpr above)]
    omega

theorem overlaps_eq_false_iff {mirror : Mirror} :
    mirror.overlaps = false ↔
      mirror.start.toNat + mirror.size.toNat ≤ mirror.canonical.toNat ∨
        mirror.canonical.toNat + mirror.size.toNat ≤ mirror.start.toNat := by
  rw [← Bool.not_eq_true, overlaps, Bool.and_eq_true, decide_eq_true_eq, decide_eq_true_eq]
  omega

/-! ### Canonical forms -/

theorem canonicalize_of_outside {mirror : Mirror} {address : UInt32}
    (outside : mirror.contains address = false) : mirror.canonicalize address = address := by
  simp [canonicalize, outside]

theorem canonicalize_of_inside {mirror : Mirror} {address : UInt32}
    (inside : mirror.contains address = true) :
    mirror.canonicalize address = address - mirror.start + mirror.canonical := by
  simp [canonicalize, inside]

theorem toNat_canonicalize {mirror : Mirror} {address : UInt32}
    (inside : mirror.contains address = true) :
    (mirror.canonicalize address).toNat =
      (address.toNat - mirror.start.toNat + mirror.canonical.toNat) % UInt32.size := by
  have above := UInt32.le_iff_toNat_le.mpr (contains_iff.mp inside).1
  rw [canonicalize_of_inside inside, UInt32.toNat_add, UInt32.toNat_sub_of_le _ _ above]

theorem canonicalize_inj {mirror : Mirror} {x y : UInt32} (insideX : mirror.contains x = true)
    (insideY : mirror.contains y = true)
    (same : mirror.canonicalize x = mirror.canonicalize y) : x = y := by
  rw [canonicalize_of_inside insideX, canonicalize_of_inside insideY, UInt32.add_left_inj,
    UInt32.sub_left_inj] at same
  exact same

/-- A canonical form comes back into the window only by wrapping, and then far enough. -/
theorem contains_canonicalize_iff {mirror : Mirror} (apart : mirror.overlaps = false)
    {address : UInt32} (inside : mirror.contains address = true) :
    mirror.contains (mirror.canonicalize address) = true ↔
      UInt32.size + mirror.start.toNat ≤
        address.toNat - mirror.start.toNat + mirror.canonical.toNat := by
  have window := contains_iff.mp inside
  have disjoint := overlaps_eq_false_iff.mp apart
  have bound := mirror.canonical.toNat_lt_size
  have bound' := address.toNat_lt_size
  rw [contains_iff, toNat_canonicalize inside]
  by_cases wraps : UInt32.size ≤ address.toNat - mirror.start.toNat + mirror.canonical.toNat
  · -- One turn around the address space: what is left is smaller than the offset.
    rw [Nat.mod_eq_sub_mod wraps, Nat.mod_eq_of_lt (by omega)]
    omega
  · rw [Nat.mod_eq_of_lt (by omega)]
    omega

theorem EndsBefore.contains_canonicalize {mirror : Mirror} (ends : mirror.EndsBefore)
    (apart : mirror.overlaps = false) {address : UInt32}
    (inside : mirror.contains address = true) :
    mirror.contains (mirror.canonicalize address) = false := by
  have window := contains_iff.mp inside
  rw [← Bool.not_eq_true, contains_canonicalize_iff apart inside]
  unfold EndsBefore at ends
  omega

/-- If the memory that is shown comes to the window, the last address of the window leads there. -/
theorem exists_contains_canonicalize {mirror : Mirror} (apart : mirror.overlaps = false)
    (enters : ¬mirror.EndsBefore) :
    ∃ address, mirror.contains address = true ∧
      mirror.contains (mirror.canonicalize address) = true := by
  unfold EndsBefore at enters
  have disjoint := overlaps_eq_false_iff.mp apart
  have bound := mirror.canonical.toNat_lt_size
  -- The memory that is shown starts above the window, so the window's last address exists.
  have last : (UInt32.ofNat (mirror.start.toNat + mirror.size.toNat - 1)).toNat =
      mirror.start.toNat + mirror.size.toNat - 1 :=
    UInt32.toNat_ofNat_of_lt' (by omega)
  have inside : mirror.contains
      (UInt32.ofNat (mirror.start.toNat + mirror.size.toNat - 1)) = true := by
    rw [contains_iff, last]
    omega
  refine ⟨_, inside, ?_⟩
  rw [contains_canonicalize_iff apart inside, last]
  omega

theorem canonicalize_leaves_iff {mirror : Mirror} (apart : mirror.overlaps = false) :
    (∀ address, mirror.contains address = true →
      mirror.contains (mirror.canonicalize address) = false) ↔ mirror.EndsBefore := by
  constructor
  · intro leaves
    by_contra enters
    obtain ⟨address, inside, again⟩ := exists_contains_canonicalize apart enters
    rw [leaves address inside] at again
    cases again
  · intro ends address inside
    exact ends.contains_canonicalize apart inside

/-- An address of the window is not its own canonical form, because the memory that is shown is
somewhere else. -/
theorem canonicalize_ne_self {mirror : Mirror} (apart : mirror.overlaps = false) {address : UInt32}
    (inside : mirror.contains address = true) : mirror.canonicalize address ≠ address := by
  intro fixed
  have window := contains_iff.mp inside
  have disjoint := overlaps_eq_false_iff.mp apart
  have bound := mirror.canonical.toNat_lt_size
  have stays : mirror.contains (mirror.canonicalize address) = true := by
    rw [fixed]
    exact inside
  -- Staying takes a turn around the address space, and the form is then below the address.
  have wraps := (contains_canonicalize_iff apart inside).mp stays
  have number := toNat_canonicalize inside
  rw [fixed, Nat.mod_eq_sub_mod (by omega), Nat.mod_eq_of_lt (by omega)] at number
  omega

theorem canonicalize_idempotent_iff {mirror : Mirror} (apart : mirror.overlaps = false) :
    (∀ address, mirror.canonicalize (mirror.canonicalize address) = mirror.canonicalize address) ↔
      mirror.EndsBefore := by
  rw [← canonicalize_leaves_iff apart]
  constructor
  · -- A form inside the window would move once more.
    intro idempotent address inside
    cases again : mirror.contains (mirror.canonicalize address) with
    | false => rfl
    | true => exact absurd (idempotent address) (canonicalize_ne_self apart again)
  · intro leaves address
    cases inside : mirror.contains address with
    | false => rw [canonicalize_of_outside inside, canonicalize_of_outside inside]
    | true => exact canonicalize_of_outside (leaves address inside)

end Disassembly.Memory.Mirror

namespace Disassembly.Config

open Memory

/-! ### Accepted layouts -/

theorem during_eq_ok {α : Type} {context : Context} {result : Except Fault α} {value : α} :
    during context result = .ok value ↔ result = .ok value := by
  cases result <;> simp [during, Except.mapError]

theorem Source.located_eq_ok {α : Type} {source : Source} {result : Except Fault α} {value : α} :
    source.located result = .ok value ↔ result = .ok value := by
  unfold located
  split
  · rfl
  · exact during_eq_ok

theorem MirrorText.overlaps_of_convert {entry : MirrorText} {mirror : Mirror}
    (returned : entry.convert = .ok mirror) : mirror.overlaps = false := by
  obtain ⟨start, -, returned⟩ := exists_of_bind_eq_ok returned
  obtain ⟨size, -, returned⟩ := exists_of_bind_eq_ok returned
  obtain ⟨canonical, -, returned⟩ := exists_of_bind_eq_ok returned
  dsimp only at returned
  split at returned
  · cases returned
  · next apart =>
    cases returned
    simpa using apart

/-- The mirror of a layout that is read does not overlap the memory it shows. -/
theorem overlaps_of_parseLayout {source : Source} {space : AddressSpace} {mirror : Mirror}
    (accepted : parseLayout source = .ok space) (shown : space.mirror = some mirror) :
    mirror.overlaps = false := by
  obtain ⟨entry, -, converted⟩ := exists_of_bind_eq_ok (Source.located_eq_ok.mp accepted)
  obtain ⟨found, mirrored, converted⟩ := exists_of_bind_eq_ok converted
  obtain ⟨ranges, -, converted⟩ := exists_of_bind_eq_ok converted
  cases converted
  change found = some mirror at shown
  subst shown
  -- `mapM` over an optional entry: only a converted one yields a mirror.
  cases text : entry.mirror with
  | none =>
    rw [text] at mirrored
    cases mirrored
  | some entry =>
    cases outcome : entry.convert with
    | error fault =>
      rw [text, Option.mapM_some, outcome] at mirrored
      cases mirrored
    | ok result =>
      rw [text, Option.mapM_some, outcome] at mirrored
      cases mirrored
      exact entry.overlaps_of_convert outcome

/-- A mirror that a layout is accepted with moves addresses of its window to different places and
leaves all others as they are. That it moves them out of the window, and that one step is enough,
holds exactly if the memory that is shown does not come back to the window by wrapping around. -/
theorem canonicalize_laws_of_layout (mirror : Mirror) :
    (∀ source space, parseLayout source = .ok space → space.mirror = some mirror →
      mirror.overlaps = false) ∧
    (mirror.overlaps = false →
      (∀ address, mirror.contains address = false → mirror.canonicalize address = address) ∧
      (∀ x y, mirror.contains x = true → mirror.contains y = true →
        mirror.canonicalize x = mirror.canonicalize y → x = y) ∧
      ((∀ address, mirror.contains address = true →
        mirror.contains (mirror.canonicalize address) = false) ↔ mirror.EndsBefore) ∧
      ((∀ address,
        mirror.canonicalize (mirror.canonicalize address) = mirror.canonicalize address) ↔
          mirror.EndsBefore)) := by
  refine ⟨fun source space => overlaps_of_parseLayout, fun apart => ⟨?_, ?_, ?_, ?_⟩⟩
  · exact fun address => Mirror.canonicalize_of_outside
  · exact fun x y => Mirror.canonicalize_inj
  · exact Mirror.canonicalize_leaves_iff apart
  · exact Mirror.canonicalize_idempotent_iff apart

/-- The memory at the end of the address space continues at its start, up to the window. -/
def touchingMirror : Mirror where
  start := 0x800
  size := 0x1000
  canonical := 0xfffff800

theorem canonicalize_laws_of_layout_touching :
    touchingMirror.overlaps = false ∧
      (∀ address, touchingMirror.contains address = true →
        touchingMirror.contains (touchingMirror.canonicalize address) = false) ∧
      ∀ address, touchingMirror.canonicalize (touchingMirror.canonicalize address) =
        touchingMirror.canonicalize address := by
  have apart : touchingMirror.overlaps = false := by decide
  have ends : touchingMirror.EndsBefore := by decide
  obtain ⟨-, -, leaves, idempotent⟩ := (canonicalize_laws_of_layout touchingMirror).2 apart
  exact ⟨apart, leaves.mpr ends, idempotent.mpr ends⟩

/-- A window at `0x10` that shows the last bytes of the address space and those that follow. -/
def wrappingLayout : Source where
  content := .file "[[\"10\",\"100\",\"ffffff80\"],[]]".toUTF8

/-- The layout is accepted, but an address of the window has its canonical form in the window
again, and that one has another. -/
theorem canonicalize_stays_in_wrapping_window :
    ∃ space mirror, parseLayout wrappingLayout = .ok space ∧ space.mirror = some mirror ∧
      mirror.contains 0xb0 = true ∧ mirror.contains (mirror.canonicalize 0xb0) = true ∧
      mirror.canonicalize (mirror.canonicalize 0xb0) ≠ mirror.canonicalize 0xb0 := by
  refine ⟨{ mirror := some ⟨0x10, 0x100, 0xffffff80⟩ }, ⟨0x10, 0x100, 0xffffff80⟩, ?_, rfl, ?_⟩
  · have read : (parseLayout wrappingLayout).toOption =
        some { mirror := some ⟨0x10, 0x100, 0xffffff80⟩ } := by decide +kernel
    cases outcome : parseLayout wrappingLayout with
    | error fault =>
      rw [outcome] at read
      cases read
    | ok space =>
      rw [outcome] at read
      cases read
      rfl
  · decide

end Disassembly.Config
