import Mathlib.Data.List.Forall2

/-!
# Computations that succeed or fail

What follows about the parts of a computation in `Except` from the success of the whole, and which
part a failure comes from.
-/

namespace Disassembly

variable {ε α β : Type}

theorem exists_of_isOk {outcome : Except ε α} (succeeds : outcome.isOk = true) :
    ∃ value, outcome = .ok value := by
  cases outcome with
  | error fault => cases succeeds
  | ok value => exact ⟨value, rfl⟩

theorem eq_ok_of_toOption {outcome : Except ε α} {value : α}
    (found : outcome.toOption = some value) : outcome = .ok value := by
  cases outcome with
  | error fault => cases found
  | ok other =>
    cases found
    rfl

theorem exists_of_bind_eq_ok {outcome : Except ε α} {next : α → Except ε β} {result : β}
    (returned : outcome >>= next = .ok result) :
    ∃ value, outcome = .ok value ∧ next value = .ok result := by
  cases outcome with
  | error fault => cases returned
  | ok value => exact ⟨value, rfl, returned⟩

theorem bind_eq_ok_iff {outcome : Except ε α} {next : α → Except ε β} {result : β} :
    outcome >>= next = .ok result ↔ ∃ value, outcome = .ok value ∧ next value = .ok result := by
  constructor
  · exact exists_of_bind_eq_ok
  · rintro ⟨value, rfl, returned⟩
    exact returned

theorem pure_eq_ok_iff {value result : α} :
    (pure value : Except ε α) = .ok result ↔ value = result := by
  constructor
  · rintro ⟨⟩
    rfl
  · rintro rfl
    rfl

theorem mapError_eq_ok_iff {ε' : Type} {f : ε → ε'} {outcome : Except ε α} {value : α} :
    outcome.mapError f = .ok value ↔ outcome = .ok value := by
  cases outcome <;> simp [Except.mapError]

theorem mapError_eq_error_iff {ε' : Type} {f : ε → ε'} {outcome : Except ε α} {fault : ε'} :
    outcome.mapError f = .error fault ↔ ∃ found, outcome = .error found ∧ fault = f found := by
  cases outcome <;> simp [Except.mapError, eq_comm]

theorem forall₂_of_mapM_eq_ok {f : α → Except ε β} {items : List α} {found : List β}
    (returned : items.mapM f = .ok found) :
    List.Forall₂ (fun item result => f item = .ok result) items found := by
  induction items generalizing found with
  | nil =>
    cases returned
    exact .nil
  | cons item rest ih =>
    rw [List.mapM_cons] at returned
    obtain ⟨result, first, returned⟩ := exists_of_bind_eq_ok returned
    obtain ⟨others, later, returned⟩ := exists_of_bind_eq_ok returned
    cases returned
    exact .cons first (ih later)

theorem exists_of_mem_forall₂ {R : α → β → Prop} {items : List α} {found : List β}
    (related : List.Forall₂ R items found) {result : β} (member : result ∈ found) :
    ∃ item ∈ items, R item result := by
  induction related with
  | nil => cases member
  | @cons item first rest others here _ ih =>
    rcases List.mem_cons.mp member with rfl | later
    · exact ⟨item, List.mem_cons_self, here⟩
    · obtain ⟨source, present, same⟩ := ih later
      exact ⟨source, List.mem_cons_of_mem _ present, same⟩

theorem exists_of_mem_mapM_eq_ok {f : α → Except ε β} {items : List α} {found : List β}
    (returned : items.mapM f = .ok found) {result : β} (member : result ∈ found) :
    ∃ item ∈ items, f item = .ok result :=
  exists_of_mem_forall₂ (forall₂_of_mapM_eq_ok returned) member

/-- A traversal fails with the first item that fails. -/
theorem mapM_of_failure {f : α → Except ε β} {before after : List α} {item : α} {fault : ε}
    (failed : f item = .error fault)
    (earlier : ∀ other ∈ before, ∃ result, f other = .ok result) :
    (before ++ item :: after).mapM f = .error fault := by
  induction before with
  | nil =>
    rw [List.nil_append, List.mapM_cons, failed]
    rfl
  | cons first rest ih =>
    obtain ⟨result, succeeded⟩ := earlier first List.mem_cons_self
    rw [List.cons_append, List.mapM_cons, succeeded,
      ih fun other member => earlier other (List.mem_cons_of_mem _ member)]
    rfl

theorem exists_failure_of_mapM {f : α → Except ε β} {items : List α} {fault : ε}
    (failed : items.mapM f = .error fault) :
    ∃ before item after, items = before ++ item :: after ∧ f item = .error fault ∧
      ∀ other ∈ before, ∃ result, f other = .ok result := by
  induction items with
  | nil => cases failed
  | cons first rest ih =>
    rw [List.mapM_cons] at failed
    cases outcome : f first with
    | error found =>
      rw [outcome] at failed
      cases failed
      exact ⟨[], first, rest, rfl, outcome, nofun⟩
    | ok result =>
      cases later : rest.mapM f with
      | error found =>
        rw [outcome, later] at failed
        cases failed
        obtain ⟨before, item, after, rfl, failed, earlier⟩ := ih later
        refine ⟨first :: before, item, after, rfl, failed, ?_⟩
        intro other member
        rcases List.mem_cons.mp member with rfl | member
        · exact ⟨result, outcome⟩
        · exact earlier other member
      | ok results =>
        rw [outcome, later] at failed
        cases failed

theorem mapM_eq_error_iff {f : α → Except ε β} {items : List α} {fault : ε} :
    items.mapM f = .error fault ↔
      ∃ before item after, items = before ++ item :: after ∧ f item = .error fault ∧
        ∀ other ∈ before, ∃ result, f other = .ok result := by
  constructor
  · exact exists_failure_of_mapM
  · rintro ⟨before, item, after, rfl, failed, earlier⟩
    exact mapM_of_failure failed earlier

/-- A traversal fails exactly if one of the items does. -/
theorem exists_mapM_eq_error_iff {f : α → Except ε β} {items : List α} :
    (∃ fault, items.mapM f = .error fault) ↔ ∃ item ∈ items, ∃ fault, f item = .error fault := by
  constructor
  · rintro ⟨fault, failed⟩
    obtain ⟨before, item, after, rfl, failed, -⟩ := exists_failure_of_mapM failed
    exact ⟨item, List.mem_append_right _ List.mem_cons_self, fault, failed⟩
  · rintro ⟨item, member, fault, failed⟩
    cases returned : items.mapM f with
    | error first => exact ⟨first, rfl⟩
    | ok found =>
      obtain ⟨result, -, succeeded⟩ :=
        exists_of_mem_forall₂ (forall₂_of_mapM_eq_ok returned).flip member
      cases failed.symm.trans succeeded

/-- Storing what is read on the way does not change where reading fails. -/
theorem foldlM_store_eq_error_iff {σ : Type} {read : α → Except ε β} {store : σ → α → β → σ}
    {items : List α} {start : σ} {fault : ε} :
    items.foldlM (fun state item => do return store state item (← read item)) start =
        .error fault ↔
      items.mapM read = .error fault := by
  induction items generalizing start with
  | nil => exact iff_of_false nofun nofun
  | cons first rest ih =>
    rw [List.foldlM_cons, List.mapM_cons]
    cases read first with
    | error found => simp [bind, Except.bind]
    | ok value =>
      change rest.foldlM _ (store start first value) = _ ↔ _
      rw [ih]
      cases rest.mapM read <;> simp [bind, Except.bind, pure, Except.pure]

end Disassembly
