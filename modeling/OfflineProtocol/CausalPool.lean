import Mathlib.Data.Finset.Union

/-! Sets of events under a causal order, over an arbitrary type of events. A pool
collects events as they arrive; those whose whole past is in the pool are ready. -/
namespace CausalPool
variable {α : Type*}

structure Causality (α : Type*) where
  past : α → Finset α
  trans : ∀ a, ∀ b ∈ past a, past b ⊆ past a

variable (C : Causality α)

def Closed (s : Finset α) : Prop := ∀ a ∈ s, C.past a ⊆ s

lemma closed_empty : Closed C ∅ := fun _ ha => absurd ha (Finset.notMem_empty _)

variable [DecidableEq α]

instance (s : Finset α) : Decidable (Closed C s) :=
  inferInstanceAs (Decidable (∀ a ∈ s, C.past a ⊆ s))

def ready (pool : Finset α) : Finset α := pool.filter fun a => C.past a ⊆ pool

variable {C} {s t pool : Finset α}

@[simp] lemma mem_ready {a : α} : a ∈ ready C pool ↔ a ∈ pool ∧ C.past a ⊆ pool :=
  Finset.mem_filter

lemma ready_subset : ready C pool ⊆ pool := Finset.filter_subset _ _

lemma ready_closed : Closed C (ready C pool) := by
  intro a ha b hb
  have hpast := (mem_ready.1 ha).2
  exact mem_ready.2 ⟨hpast hb, (C.trans a b hb).trans hpast⟩

lemma Closed.insert {a : α} (h : Closed C s) (ha : C.past a ⊆ s) : Closed C (insert a s) := by
  intro b hb
  rcases Finset.mem_insert.1 hb with rfl | hb
  · exact ha.trans (Finset.subset_insert _ _)
  · exact (h b hb).trans (Finset.subset_insert _ _)

lemma Closed.union (hs : Closed C s) (ht : Closed C t) : Closed C (s ∪ t) := by
  intro a ha
  rcases Finset.mem_union.1 ha with ha | ha
  · exact (hs a ha).trans Finset.subset_union_left
  · exact (ht a ha).trans Finset.subset_union_right

/-- A closed part of a pool is ready in it. -/
lemma Closed.subset_ready (h : Closed C s) (hs : s ⊆ pool) : s ⊆ ready C pool :=
  fun a ha => mem_ready.2 ⟨hs ha, (h a ha).trans hs⟩

lemma ready_mono (h : s ⊆ t) : ready C s ⊆ ready C t :=
  ready_closed.subset_ready (ready_subset.trans h)

end CausalPool
