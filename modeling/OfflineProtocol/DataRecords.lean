import OfflineProtocol.DataStore

/-! What a backend holds for a document, and what each storage call does to it. -/
namespace OfflineProtocol
open KeyedTable FaultySchedule CausalPool
open Interruption (Fault Part Outcome)

namespace DataBackend
variable (b : DataBackend) (key : DocKey)

def compactedChanges : Finset Change := ((get b.docs key).map Blob.changes).getD ∅

def deltaChanges (seq : ℕ) : Finset Change := ((get b.deltaLog (key, seq)).map Blob.changes).getD ∅

def sequences : List ℕ := (b.deltaLog.keys.filter fun k => k.1 = key).map Prod.snd

def changes : Finset Change :=
  b.compactedChanges key ∪ (b.sequences key).toFinset.biUnion (b.deltaChanges key)

def durable (eng : Engine) : Finset Change := ready eng.causality (b.changes key)

variable {b key}

lemma mem_sequences : seq ∈ b.sequences key ↔ (key, seq) ∈ b.deltaLog := by
  simp only [sequences, List.mem_map, List.mem_filter, decide_eq_true_eq, AList.mem_keys]
  constructor
  · rintro ⟨⟨k, n⟩, ⟨hk, rfl⟩, rfl⟩
    exact hk
  intro h
  exact ⟨(key, seq), ⟨h, rfl⟩, rfl⟩

lemma deltaChanges_eq_empty (h : (key, seq) ∉ b.deltaLog) : b.deltaChanges key seq = ∅ := by
  rw [deltaChanges, get_eq_none_iff.2 h]
  rfl

lemma mem_changes :
    c ∈ b.changes key ↔ c ∈ b.compactedChanges key ∨ ∃ seq, c ∈ b.deltaChanges key seq := by
  simp only [changes, Finset.mem_union, Finset.mem_biUnion, List.mem_toFinset, mem_sequences]
  constructor
  · rintro (h | ⟨seq, -, h⟩)
    · exact .inl h
    · exact .inr ⟨seq, h⟩
  rintro (h | ⟨seq, h⟩)
  · exact .inl h
  by_cases hs : (key, seq) ∈ b.deltaLog
  · exact .inr ⟨seq, hs, h⟩
  rw [deltaChanges_eq_empty hs] at h
  exact absurd h (Finset.notMem_empty c)

lemma compacted_subset : b.compactedChanges key ⊆ b.changes key :=
  fun _ hc => mem_changes.2 (.inl hc)

lemma delta_subset : b.deltaChanges key seq ⊆ b.changes key :=
  fun _ hc => mem_changes.2 (.inr ⟨seq, hc⟩)

lemma changes_congr {b' : DataBackend} (hdoc : get b'.docs key = get b.docs key)
    (hlog : ∀ seq, get b'.deltaLog (key, seq) = get b.deltaLog (key, seq)) :
    b'.changes key = b.changes key := by
  ext c
  simp only [mem_changes, compactedChanges, deltaChanges, hdoc, hlog]

lemma put_delta_changes (h : b.deltaChanges key seq ⊆ b.compactedChanges key) :
    (b.put (.delta key seq blob)).changes key = b.changes key ∪ blob.changes := by
  have hother (n : ℕ) (hn : n ≠ seq) :
      (b.put (.delta key seq blob)).deltaChanges key n = b.deltaChanges key n := by
    have hne : (key, n) ≠ (key, seq) := fun he => hn (congrArg Prod.snd he)
    simp only [deltaChanges, put, get_insert_ne hne]
  have hnew : (b.put (.delta key seq blob)).deltaChanges key seq = blob.changes := by
    simp only [deltaChanges, put, get_insert_self, Option.map_some, Option.getD_some]
  ext c
  rw [Finset.mem_union, mem_changes, mem_changes]
  constructor
  · rintro (hc | ⟨n, hc⟩)
    · exact .inl (.inl hc)
    by_cases hn : n = seq
    · rw [hn, hnew] at hc
      exact .inr hc
    rw [hother n hn] at hc
    exact .inl (.inr ⟨n, hc⟩)
  · rintro ((hc | ⟨n, hc⟩) | hc)
    · exact .inl hc
    · by_cases hn : n = seq
      · rw [hn] at hc
        exact .inl (h hc)
      rw [← hother n hn] at hc
      exact .inr ⟨n, hc⟩
    · rw [← hnew] at hc
      exact .inr ⟨seq, hc⟩

lemma put_doc_compacted : (b.put (.doc key blob)).compactedChanges key = blob.changes := by
  simp only [compactedChanges, put, get_insert_self, Option.map_some, Option.getD_some]

/-- Writing the whole document over a smaller record loses nothing. -/
lemma put_doc_changes (h : b.changes key ⊆ blob.changes) :
    (b.put (.doc key blob)).changes key = blob.changes := by
  ext c
  rw [mem_changes, put_doc_compacted]
  constructor
  · rintro (hc | ⟨n, hc⟩)
    · exact hc
    · exact h (mem_changes.2 (.inr ⟨n, hc⟩))
  · exact .inl

/-- Deleting a delta record leaves what the compacted record holds. -/
lemma remove_delta_changes (h : b.changes key = b.compactedChanges key) :
    (b.remove (.delta key seq)).changes key = b.changes key := by
  ext c
  rw [mem_changes, h]
  constructor
  · rintro (hc | ⟨n, hc⟩)
    · exact hc
    rw [← h]
    simp only [deltaChanges, remove, get_erase] at hc
    split_ifs at hc with hn
    · exact absurd hc (Finset.notMem_empty c)
    · exact delta_subset hc
  · exact .inl

end DataBackend

namespace StateKey

def isOf (k : DocKey) : StateKey → Bool
  | .doc key => key = k
  | .delta key _ => key = k
  | _ => false

end StateKey

namespace StateRecord

def isOf (k : DocKey) : StateRecord → Bool
  | .doc key _ => key = k
  | .delta key _ _ => key = k
  | _ => false

def changes : StateRecord → Finset Change
  | .doc _ blob => blob.changes
  | .delta _ _ blob => blob.changes
  | _ => ∅

end StateRecord

namespace StorageOp

def touches (k : DocKey) : StorageOp → Bool
  | .write _ record => record.isOf k
  | .delete _ key => key.isOf k
  | _ => false

end StorageOp

namespace DataBackend
variable {b : DataBackend}

lemma put_elsewhere (h : record.isOf k = false) : get (b.put record).docs k = get b.docs k ∧
      ∀ seq, get (b.put record).deltaLog (k, seq) = get b.deltaLog (k, seq) := by
  cases record with
  | doc key blob =>
    have hne : k ≠ key := fun he => by simp [StateRecord.isOf, he] at h
    exact ⟨get_insert_ne hne, fun _ => rfl⟩
  | delta key seq blob =>
    have hne : k ≠ key := fun he => by simp [StateRecord.isOf, he] at h
    exact ⟨rfl, fun n => get_insert_ne (fun he => hne (congrArg Prod.fst he))⟩
  | space space docs => exact ⟨rfl, fun _ => rfl⟩
  | docMeta key removal => exact ⟨rfl, fun _ => rfl⟩
  | sync space record => exact ⟨rfl, fun _ => rfl⟩

lemma remove_elsewhere (h : key.isOf k = false) : get (b.remove key).docs k = get b.docs k ∧
      ∀ seq, get (b.remove key).deltaLog (k, seq) = get b.deltaLog (k, seq) := by
  cases key with
  | doc key =>
    have hne : k ≠ key := fun he => by simp [StateKey.isOf, he] at h
    refine ⟨?_, fun _ => rfl⟩
    show get (b.docs.erase key) k = _
    rw [get_erase_ne hne]
  | delta key seq =>
    have hne : k ≠ key := fun he => by simp [StateKey.isOf, he] at h
    refine ⟨rfl, fun n => ?_⟩
    show get (b.deltaLog.erase (key, seq)) (k, n) = _
    rw [get_erase, if_neg fun he => hne (congrArg Prod.fst he)]
  | space space => exact ⟨rfl, fun _ => rfl⟩
  | docMeta key => exact ⟨rfl, fun _ => rfl⟩
  | sync space => exact ⟨rfl, fun _ => rfl⟩

def apply (id : ℕ) (b : DataBackend) : StorageOp → DataBackend
  | .write backend record => if backend = id then b.put record else b
  | .delete backend key => if backend = id then b.remove key else b
  | _ => b

lemma apply_elsewhere {id : ℕ} (h : op.touches k = false) :
    get (b.apply id op).docs k = get b.docs k ∧
      ∀ seq, get (b.apply id op).deltaLog (k, seq) = get b.deltaLog (k, seq) := by
  cases op with
  | list backend category => exact ⟨rfl, fun _ => rfl⟩
  | read backend key => exact ⟨rfl, fun _ => rfl⟩
  | write backend record =>
    by_cases hid : backend = id
    · simp only [apply, if_pos hid]
      exact put_elsewhere h
    · simp [apply, hid]
  | delete backend key =>
    by_cases hid : backend = id
    · simp only [apply, if_pos hid]
      exact remove_elsewhere h
    · simp [apply, hid]

lemma apply_changes {id : ℕ} (h : op.touches k = false) :
    (b.apply id op).changes k = b.changes k :=
  changes_congr (apply_elsewhere h).1 (apply_elsewhere h).2

lemma put_subset (record) : (b.put record).changes k ⊆ b.changes k ∪ record.changes := by
  intro c hc
  rw [Finset.mem_union, mem_changes]
  rcases mem_changes.1 hc with hdoc | ⟨seq, hdelta⟩
  · cases record with
    | doc key blob =>
      by_cases hkey : k = key
      · subst hkey
        rw [put_doc_compacted] at hdoc
        exact .inr hdoc
      simp only [compactedChanges, put, get_insert_ne hkey] at hdoc
      exact .inl (.inl hdoc)
    | _ => exact .inl (.inl hdoc)
  · cases record with
    | delta key n blob =>
      by_cases hkey : (k, seq) = (key, n)
      · simp only [deltaChanges, put, hkey, get_insert_self, Option.map_some, Option.getD_some]
          at hdelta
        exact .inr hdelta
      simp only [deltaChanges, put, get_insert_ne hkey] at hdelta
      exact .inl (.inr ⟨seq, hdelta⟩)
    | _ => exact .inl (.inr ⟨seq, hdelta⟩)

lemma remove_subset {key} : (b.remove key).changes k ⊆ b.changes k := by
  intro c hc
  rw [mem_changes]
  rcases mem_changes.1 hc with hdoc | ⟨seq, hdelta⟩
  · cases key with
    | doc key =>
      simp only [compactedChanges, remove, get_erase] at hdoc
      split_ifs at hdoc with hkey
      · simp at hdoc
      · exact .inl hdoc
    | _ => exact .inl hdoc
  · cases key with
    | delta key n =>
      simp only [deltaChanges, remove, get_erase] at hdelta
      split_ifs at hdelta with hkey
      · simp at hdelta
      · exact .inr ⟨seq, hdelta⟩
    | _ => exact .inr ⟨seq, hdelta⟩

end DataBackend

namespace DataLayer

@[simp] lemma effect_backend : (effect op s).backend = s.backend := by cases op <;> rfl
@[simp] lemma effect_docs : (effect op s).docs = s.docs := by cases op <;> rfl
@[simp] lemma effect_spaces : (effect op s).spaces = s.spaces := by cases op <;> rfl
@[simp] lemma effect_sent : (effect op s).sent = s.sent := by cases op <;> rfl

lemma effect_disk (id) : (effect op s).disk id = (s.disk id).apply id op := by
  cases op with
  | list backend category => rfl
  | read backend key => rfl
  | write backend | delete backend =>
    by_cases h : backend = id
    · subst h
      simp [effect, setBackend, DataBackend.apply]
    have h' : id ≠ backend := fun he => h he.symm
    simp [effect, setBackend, DataBackend.apply, h, h']

end DataLayer

end OfflineProtocol
