/-!
Computations that may fail, for any kind of failure. A sequence of two that succeeds consists of two
that succeed, and the results for the items of a list are just the results for its members.
-/
namespace ShapeQuery

section Checks

variable {ε α β : Type}

/-- A result of two steps in a row comes of a result of each of them. -/
theorem checked_bind_ok {checked : Except ε α} {next : α → Except ε β} {result : β}
    (success : (checked >>= next) = .ok result) :
    ∃ value, checked = .ok value ∧ next value = .ok result := by
  cases checked with
  | error fault => cases success
  | ok value => exact ⟨value, rfl, success⟩

/-- Results for the items of a list are a result for the first item and results
for the others. -/
theorem checked_mapM_cons {f : α → Except ε β} {item : α} {rest : List α} {results : List β}
    (success : (item :: rest).mapM f = .ok results) :
    ∃ first others, f item = .ok first ∧ rest.mapM f = .ok others ∧ results = first :: others := by
  rw [List.mapM_cons] at success
  obtain ⟨first, made, success⟩ := checked_bind_ok success
  obtain ⟨others, madeOthers, success⟩ := checked_bind_ok success
  cases success
  exact ⟨first, others, made, madeOthers, rfl⟩

theorem checked_mapM_mem {f : α → Except ε β} {items : List α} : ∀ {results : List β},
    items.mapM f = .ok results → ∀ result ∈ results, ∃ item ∈ items, f item = .ok result := by
  induction items with
  | nil =>
    intro results success
    cases success
    exact List.forall_mem_nil _
  | cons item rest ih =>
    intro results success
    obtain ⟨first, others, made, madeOthers, rfl⟩ := checked_mapM_cons success
    refine List.forall_mem_cons.mpr ⟨⟨item, List.mem_cons_self, made⟩, fun result member => ?_⟩
    obtain ⟨other, listed, madeOther⟩ := ih madeOthers result member
    exact ⟨other, List.mem_cons_of_mem item listed, madeOther⟩

theorem checked_mapM_made {f : α → Except ε β} {items : List α} : ∀ {results : List β},
    items.mapM f = .ok results → ∀ item ∈ items, ∃ result ∈ results, f item = .ok result := by
  induction items with
  | nil => simp
  | cons item rest ih =>
    intro results success
    obtain ⟨first, others, made, madeOthers, rfl⟩ := checked_mapM_cons success
    refine List.forall_mem_cons.mpr ⟨⟨first, List.mem_cons_self, made⟩, fun other member => ?_⟩
    obtain ⟨result, among, madeOther⟩ := ih madeOthers other member
    exact ⟨result, List.mem_cons_of_mem _ among, madeOther⟩

end Checks

end ShapeQuery
